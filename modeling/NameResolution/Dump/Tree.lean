import NameResolution.Dump.Value
import NameResolution.Tree.Basic

/-!
# Dumps of trees — a program as a structured value

Every part of a tree is an object with the names of its fields as keys. The kind of a part is not
written, so the basic types are empty objects.
-/

namespace NameResolution

open Dump

/-! ## Identifiers and types -/

/-- The entries for a position. -/
def Position.entries (p : Position) : List (String × Value) :=
  [("line", .int p.line), ("col", .int p.col)]

/-- An identifier; its symbol is not written. -/
def Ident.dump (id : Ident) : Value :=
  .object (id.pos.entries ++ [("name", .text id.name), ("sym", .null)])

/-- A type; only a struct type has a field. -/
def TypeRef.dump : TypeRef → Value
  | struct id => .object [("id", id.dump)]
  | _ => .object []

/-! ## Expressions -/

/-- A chain is dumped from its last field inwards. -/
def Loc.dump : Loc → Value
  | var id => id.dump
  | field left id => .object [("loc", left.dump), ("id", id.dump)]

mutual

/-- Literals are dumped with their positions, all else by its parts. The word for true and that
for false look alike. -/
def Expr.dump : Expr → Value
  | .trueLit pos => .object pos.entries
  | .falseLit pos => .object pos.entries
  | .intLit pos value => .object (pos.entries ++ [("value", .int value)])
  | .strLit pos literal => .object (pos.entries ++ [("value", .text literal)])
  | .loc location => location.dump
  | .assign target value => .object [("lhs", target.dump), ("exp", value.dump)]
  | .call callee args => .object [("id", callee.dump), ("args", .list (Expr.dumpAll args))]
  | .unary op operand => .object [("op", .text op), ("exp", operand.dump)]
  | .binary op left right =>
    .object [("op", .text op), ("left", left.dump), ("right", right.dump)]

def Expr.dumpAll : List Expr → List Value
  | [] => []
  | e :: es => e.dump :: Expr.dumpAll es

end

/-! ## Statements -/

/-- A variable is dumped with its type and its name. -/
def VarDecl.dump (d : VarDecl) : Value :=
  .object [("type", d.type.dump), ("id", d.id.dump), ("is_struct_field", .bool d.isField)]

mutual

/-- A statement is dumped by its parts, under the names of its kind. -/
def Stmt.dump : Stmt → Value
  | .assign target value => .object [("assign", (Expr.assign target value).dump)]
  -- increments, decrements and inputs look alike, and so do conditions with one block and loops
  | .increment target | .decrement target | .read target => .object [("exp", target.dump)]
  | .ifThen cond ⟨decls, stmts⟩ =>
    .object [("cond", cond.dump), ("decls", .list (decls.map VarDecl.dump)),
      ("stmts", .list (Stmt.dumpAll stmts))]
  | .ifElse cond ⟨decls, stmts⟩ ⟨elseDecls, elseStmts⟩ =>
    .object [("cond", cond.dump), ("then_decls", .list (decls.map VarDecl.dump)),
      ("then_stmts", .list (Stmt.dumpAll stmts)),
      ("else_decls", .list (elseDecls.map VarDecl.dump)),
      ("else_stmts", .list (Stmt.dumpAll elseStmts))]
  | .loop cond ⟨decls, stmts⟩ =>
    .object [("cond", cond.dump), ("decls", .list (decls.map VarDecl.dump)),
      ("stmts", .list (Stmt.dumpAll stmts))]
  | .write value => .object [("exp", value.dump)]
  | .call callee args => .object [("call", (Expr.call callee args).dump)]
  | .ret none => .object [("exp", .null)]
  | .ret (some value) => .object [("exp", value.dump)]

def Stmt.dumpAll : List Stmt → List Value
  | [] => []
  | s :: ss => s.dump :: Stmt.dumpAll ss

end

/-- A block is dumped with its declarations and its statements. -/
def Block.dump (b : Block Stmt) : Value :=
  .object [("decls", .list (b.decls.map VarDecl.dump)), ("stmts", .list (Stmt.dumpAll b.stmts))]

/-! ## Declarations -/

/-- A formal is dumped with its type and its name. -/
def Formal.dump (f : Formal) : Value :=
  .object [("type", f.type.dump), ("id", f.id.dump)]

/-- A function is dumped with its result, its name, its formals and its body. -/
def FuncDecl.dump (f : FuncDecl) : Value :=
  .object [("return_type", f.result.dump), ("id", f.id.dump),
    ("formals", .list (f.formals.map Formal.dump)), ("body", f.body.dump)]

/-- A struct is dumped with its name and its fields. -/
def StructDecl.dump (s : StructDecl) : Value :=
  .object [("id", s.id.dump), ("fields", .list (s.fields.map VarDecl.dump))]

/-- A declaration is dumped as what it declares, without saying which kind it is. -/
def Decl.dump : Decl → Value
  | var decl => decl.dump
  | func decl => decl.dump
  | struct decl => decl.dump

/-- A program is dumped with the list of its declarations. -/
def Program.dump (p : Program) : Value :=
  .object [("decls", .list (p.decls.map Decl.dump))]

end NameResolution
