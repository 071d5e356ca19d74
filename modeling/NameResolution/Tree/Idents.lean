import NameResolution.Tree.Basic

/-!
# Identifiers of a tree — every occurrence of a name, in the order of the text

The order is that of the source: a declaration names its type before what it declares, a call its
function before the arguments, a field access its left side before the field.
-/

namespace NameResolution

/-! ## Types and expressions -/

/-- A type names at most the struct it refers to. -/
def TypeRef.idents : TypeRef → List Ident
  | struct id => [id]
  | _ => []

/-- The variable at the front of a chain, then its fields from the left. -/
def Loc.idents : Loc → List Ident
  | var id => [id]
  | field left id => left.idents ++ [id]

mutual

/-- The identifiers of an expression, in the order of the text. -/
def Expr.idents : Expr → List Ident
  | .trueLit _ | .falseLit _ | .intLit _ _ | .strLit _ _ => []
  | .loc location => location.idents
  | .assign target value => target.idents ++ value.idents
  | .call callee args => callee :: Expr.identsAll args
  | .unary _ operand => operand.idents
  | .binary _ left right => left.idents ++ right.idents

def Expr.identsAll : List Expr → List Ident
  | [] => []
  | e :: es => e.idents ++ Expr.identsAll es

end

/-! ## Statements -/

/-- The type stands in front of the name. -/
def VarDecl.idents (d : VarDecl) : List Ident :=
  d.type.idents ++ [d.id]

mutual

/-- The identifiers of a statement, in the order of the text: a condition, then its blocks, each
with its declarations first. -/
def Stmt.idents : Stmt → List Ident
  | .assign target value => target.idents ++ value.idents
  | .increment target | .decrement target | .read target => target.idents
  | .ifThen cond ⟨decls, stmts⟩ =>
    cond.idents ++ decls.flatMap VarDecl.idents ++ Stmt.identsAll stmts
  | .ifElse cond ⟨decls, stmts⟩ ⟨elseDecls, elseStmts⟩ =>
    cond.idents ++ decls.flatMap VarDecl.idents ++ Stmt.identsAll stmts ++
      elseDecls.flatMap VarDecl.idents ++ Stmt.identsAll elseStmts
  | .loop cond ⟨decls, stmts⟩ =>
    cond.idents ++ decls.flatMap VarDecl.idents ++ Stmt.identsAll stmts
  | .write value => value.idents
  | .call callee args => callee :: Expr.identsAll args
  | .ret none => []
  | .ret (some value) => value.idents

def Stmt.identsAll : List Stmt → List Ident
  | [] => []
  | s :: ss => s.idents ++ Stmt.identsAll ss

end

/-- The identifiers of a block: its declarations, then its statements. -/
def Block.idents (b : Block Stmt) : List Ident :=
  b.decls.flatMap VarDecl.idents ++ Stmt.identsAll b.stmts

/-! ## Declarations -/

/-- The type stands in front of the name. -/
def Formal.idents (f : Formal) : List Ident :=
  f.type.idents ++ [f.id]

/-- The result type, the name, the formals and the body of a function. -/
def FuncDecl.idents (f : FuncDecl) : List Ident :=
  f.result.idents ++ [f.id] ++ f.formals.flatMap Formal.idents ++ f.body.idents

/-- The name of a struct, then its fields. -/
def StructDecl.idents (s : StructDecl) : List Ident :=
  s.id :: s.fields.flatMap VarDecl.idents

/-- The identifiers of a declaration of the program. -/
def Decl.idents : Decl → List Ident
  | var decl => decl.idents
  | func decl => decl.idents
  | struct decl => decl.idents

/-- Every identifier of a program. -/
def Program.idents (p : Program) : List Ident :=
  p.decls.flatMap Decl.idents

end NameResolution
