import NameResolution.Dump.Tree
import NameResolution.Proofs.Tree.Marks
import NameResolution.Proofs.Tree.Relabel

/-!
# Dumps of trees — what a dump shows of a program

A dump has the fields of every part of a tree, but not its kind. Most kinds have fields that no
other kind has. Those that share their fields look the same in a dump: the basic types, the two
truth values, statements with one expression in them, and a condition whose branch is run once or
again and again. The outline of a tree has one kind for each group of them, and no symbols.

* `Program.outline` — a tree as its dump shows it.
* `Program.leaves_outline` — an outline has the names and literals of its tree, each in its place.
* `Program.dump_outline` — a dump shows no more than the outline.
* `Program.ofDump_dump` — a dump shows no less: the outline is read off it.
* `Program.dump_eq_iff` — trees have one dump if and only if they have one outline.
-/

namespace NameResolution

open Dump

/-! ## Outlines -/

/-- A type as a dump shows it. -/
def TypeRef.outline : TypeRef → TypeRef
  | struct id => struct id.bare
  | boolean | integer | void => void

/-- What a dump tells of a location: everything but the symbols of its names. -/
def Loc.outline : Loc → Loc
  | var id => var id.bare
  | field left id => field left.outline id.bare

mutual

/-- What a dump tells of an expression. The two truth values look the same. -/
def Expr.outline : Expr → Expr
  | .trueLit pos | .falseLit pos => .trueLit pos
  | .intLit pos value => .intLit pos value
  | .strLit pos literal => .strLit pos literal
  | .loc location => .loc location.outline
  | .assign target value => .assign target.outline value.outline
  | .call callee args => .call callee.bare (Expr.outlineAll args)
  | .unary op operand => .unary op operand.outline
  | .binary op left right => .binary op left.outline right.outline

def Expr.outlineAll : List Expr → List Expr
  | [] => []
  | e :: es => e.outline :: Expr.outlineAll es

end

/-- What a dump tells of a declaration of a variable. -/
def VarDecl.outline (d : VarDecl) : VarDecl :=
  ⟨d.type.outline, d.id.bare, d.isField⟩

mutual

/-- A statement as a dump shows it. What is read, counted up or down, or returned looks like
what is written, and a loop like a condition without an else part. -/
def Stmt.outline : Stmt → Stmt
  | .assign target value => .assign target.outline value.outline
  | .increment target | .decrement target | .read target => .write (.loc target.outline)
  | .ifThen cond ⟨decls, stmts⟩ | .loop cond ⟨decls, stmts⟩ =>
    .ifThen cond.outline ⟨decls.map VarDecl.outline, Stmt.outlineAll stmts⟩
  | .ifElse cond ⟨decls, stmts⟩ ⟨elseDecls, elseStmts⟩ =>
    .ifElse cond.outline ⟨decls.map VarDecl.outline, Stmt.outlineAll stmts⟩
      ⟨elseDecls.map VarDecl.outline, Stmt.outlineAll elseStmts⟩
  | .write value => .write value.outline
  | .call callee args => .call callee.bare (Expr.outlineAll args)
  | .ret none => .ret none
  | .ret (some value) => .write value.outline

def Stmt.outlineAll : List Stmt → List Stmt
  | [] => []
  | s :: ss => s.outline :: Stmt.outlineAll ss

end

def Block.outline (b : Block Stmt) : Block Stmt :=
  ⟨b.decls.map VarDecl.outline, Stmt.outlineAll b.stmts⟩

def Formal.outline (f : Formal) : Formal :=
  ⟨f.type.outline, f.id.bare⟩

def FuncDecl.outline (f : FuncDecl) : FuncDecl :=
  ⟨f.result.outline, f.id.bare, f.formals.map Formal.outline, f.body.outline⟩

def StructDecl.outline (s : StructDecl) : StructDecl :=
  ⟨s.id.bare, s.fields.map VarDecl.outline⟩

def Decl.outline : Decl → Decl
  | var decl => var decl.outline
  | func decl => func decl.outline
  | struct decl => struct decl.outline

/-- The program as its dump shows it. -/
def Program.outline (p : Program) : Program :=
  ⟨p.decls.map Decl.outline⟩

/-! ## Names and literals of an outline -/

/-- What a dump shows of a mark: of a truth value its position, and nothing of an operator but what
the fields around it tell. -/
def Mark.shown? : Mark → Option Mark
  | name id => some (name id.bare)
  | truth pos _ => some (truth pos true)
  | number pos value => some (number pos value)
  | string pos literal => some (string pos literal)
  | operator _ => none

/-- The names and literals of a program, as a dump shows them. -/
def Program.leaves (p : Program) : List Mark :=
  p.marks.filterMap Mark.shown?

@[simp] theorem Ident.bare_bare (id : Ident) : id.bare.bare = id.bare := rfl

/-- A name is shown without its symbol. -/
@[simp] theorem filterMap_shown_name (id : Ident) (marks : List Mark) :
    (Mark.name id :: marks).filterMap Mark.shown? =
      .name id.bare :: marks.filterMap Mark.shown? := rfl

@[simp] theorem filterMap_shown_operator (op : String) (marks : List Mark) :
    (Mark.operator op :: marks).filterMap Mark.shown? = marks.filterMap Mark.shown? := rfl

theorem flatMap_leaves_outline {α : Type} {outline : α → α} {marks : α → List Mark}
    (h : ∀ x, (marks (outline x)).filterMap Mark.shown? = (marks x).filterMap Mark.shown?)
    (xs : List α) :
    ((xs.map outline).flatMap marks).filterMap Mark.shown? =
      (xs.flatMap marks).filterMap Mark.shown? := by
  rw [List.flatMap_map, List.filterMap_flatMap, List.filterMap_flatMap]
  simp only [h]

theorem TypeRef.leaves_outline (type : TypeRef) :
    type.outline.marks.filterMap Mark.shown? = type.marks.filterMap Mark.shown? := by
  cases type <;> rfl

theorem Loc.leaves_outline (location : Loc) :
    location.outline.marks.filterMap Mark.shown? = location.marks.filterMap Mark.shown? := by
  induction location with
  | var id => rfl
  | field left id ih =>
    rw [Loc.outline, Loc.marks, Loc.marks, List.filterMap_append, List.filterMap_append, ih]
    rfl

theorem VarDecl.leaves_outline (d : VarDecl) :
    d.outline.marks.filterMap Mark.shown? = d.marks.filterMap Mark.shown? := by
  rw [VarDecl.marks, VarDecl.marks, List.filterMap_append, List.filterMap_append,
    ← d.type.leaves_outline]
  rfl

theorem Formal.leaves_outline (f : Formal) :
    f.outline.marks.filterMap Mark.shown? = f.marks.filterMap Mark.shown? := by
  rw [Formal.marks, Formal.marks, List.filterMap_append, List.filterMap_append,
    ← f.type.leaves_outline]
  rfl

mutual

/-- The outline of an expression has its leaves. -/
theorem Expr.leaves_outline : (e : Expr) →
    e.outline.marks.filterMap Mark.shown? = e.marks.filterMap Mark.shown?
  | .trueLit _ | .falseLit _ | .intLit _ _ | .strLit _ _ => rfl
  | .loc location => by rw [Expr.outline, Expr.marks, Expr.marks, location.leaves_outline]
  | .assign target value => by
    simp [Expr.outline, Expr.marks, target.leaves_outline, Expr.leaves_outline value]
  | .call callee args => by simp [Expr.outline, Expr.marks, Expr.leavesAll_outline args]
  | .unary op operand => by simp [Expr.outline, Expr.marks, Expr.leaves_outline operand]
  | .binary op left right => by
    simp [Expr.outline, Expr.marks, Expr.leaves_outline left, Expr.leaves_outline right]

theorem Expr.leavesAll_outline : (es : List Expr) →
    (Expr.marksAll (Expr.outlineAll es)).filterMap Mark.shown? =
      (Expr.marksAll es).filterMap Mark.shown?
  | [] => rfl
  | e :: es => by
    simp [Expr.outlineAll, Expr.marksAll, Expr.leaves_outline e, Expr.leavesAll_outline es]

end

mutual

/-- The outline of a statement has its leaves. -/
theorem Stmt.leaves_outline : (s : Stmt) →
    s.outline.marks.filterMap Mark.shown? = s.marks.filterMap Mark.shown?
  | .assign target value => by
    simp [Stmt.outline, Stmt.marks, target.leaves_outline, value.leaves_outline]
  | .increment target | .decrement target | .read target => by
    -- the operator of the statement is another one in the outline, and no leaf
    simp [Stmt.outline, Stmt.marks, Expr.marks, target.leaves_outline]
  | .ifThen cond ⟨decls, stmts⟩ | .loop cond ⟨decls, stmts⟩ => by
    simp [Stmt.outline, Stmt.marks, cond.leaves_outline,
      flatMap_leaves_outline VarDecl.leaves_outline, Stmt.leavesAll_outline stmts]
  | .ifElse cond ⟨decls, stmts⟩ ⟨elseDecls, elseStmts⟩ => by
    simp [Stmt.outline, Stmt.marks, cond.leaves_outline,
      flatMap_leaves_outline VarDecl.leaves_outline, Stmt.leavesAll_outline stmts,
      Stmt.leavesAll_outline elseStmts]
  | .write value | .ret (some value) => by simp [Stmt.outline, Stmt.marks, value.leaves_outline]
  | .call callee args => by simp [Stmt.outline, Stmt.marks, Expr.leavesAll_outline]
  | .ret none => rfl

theorem Stmt.leavesAll_outline : (ss : List Stmt) →
    (Stmt.marksAll (Stmt.outlineAll ss)).filterMap Mark.shown? =
      (Stmt.marksAll ss).filterMap Mark.shown?
  | [] => rfl
  | s :: ss => by
    simp [Stmt.outlineAll, Stmt.marksAll, Stmt.leaves_outline s, Stmt.leavesAll_outline ss]

end

theorem Decl.leaves_outline (d : Decl) :
    d.outline.marks.filterMap Mark.shown? = d.marks.filterMap Mark.shown? := by
  cases d with
  | var decl => exact decl.leaves_outline
  | func decl =>
    simp [Decl.outline, Decl.marks, FuncDecl.outline, FuncDecl.marks, Block.outline,
      decl.result.leaves_outline, flatMap_leaves_outline Formal.leaves_outline,
      flatMap_leaves_outline VarDecl.leaves_outline, Stmt.leavesAll_outline]
  | struct decl =>
    simp [Decl.outline, Decl.marks, StructDecl.outline, StructDecl.marks,
      flatMap_leaves_outline VarDecl.leaves_outline]

/-- An outline has the names and literals of its program, each in its place. -/
theorem Program.leaves_outline (p : Program) : p.outline.leaves = p.leaves :=
  flatMap_leaves_outline Decl.leaves_outline p.decls

/-! ## No more than the outline -/

/-- Steps that are one step for every item are one step for the list. -/
theorem map_map_of_comp {α β γ : Type} {f : α → β} {g : β → γ} {both : α → γ}
    (h : ∀ x, g (f x) = both x) (xs : List α) : (xs.map f).map g = xs.map both := by
  rw [List.map_map]
  exact List.map_congr_left fun x _ => h x

/-- The symbol of an identifier is not dumped. -/
theorem Ident.dump_bare (id : Ident) : id.bare.dump = id.dump := rfl

theorem TypeRef.dump_outline (type : TypeRef) : type.outline.dump = type.dump := by
  cases type <;> rfl

theorem Loc.dump_outline (location : Loc) : location.outline.dump = location.dump := by
  induction location with
  | var id => rfl
  | field left id ih => simp only [Loc.outline, Loc.dump, ih, Ident.dump_bare]

mutual

/-- An expression and its outline are dumped alike. -/
theorem Expr.dump_outline : (e : Expr) → e.outline.dump = e.dump
  | .trueLit pos | .falseLit pos => by simp only [Expr.outline, Expr.dump]
  | .intLit pos value => by rw [Expr.outline]
  | .strLit pos literal => by rw [Expr.outline]
  | .loc location => by simp only [Expr.outline, Expr.dump, location.dump_outline]
  | .assign target value => by
    simp only [Expr.outline, Expr.dump, target.dump_outline, value.dump_outline]
  | .call callee args => by
    simp only [Expr.outline, Expr.dump, callee.dump_bare, Expr.dumpAll_outline args]
  | .unary op operand => by simp only [Expr.outline, Expr.dump, operand.dump_outline]
  | .binary op left right => by
    simp only [Expr.outline, Expr.dump, left.dump_outline, right.dump_outline]

theorem Expr.dumpAll_outline :
    (es : List Expr) → Expr.dumpAll (Expr.outlineAll es) = Expr.dumpAll es
  | [] => rfl
  | e :: es => by
    simp only [Expr.outlineAll, Expr.dumpAll, e.dump_outline, Expr.dumpAll_outline es]

end

theorem VarDecl.dump_outline (d : VarDecl) : d.outline.dump = d.dump := by
  simp only [VarDecl.outline, VarDecl.dump, TypeRef.dump_outline, Ident.dump_bare]

mutual

/-- A statement and its outline are dumped alike. -/
theorem Stmt.dump_outline : (s : Stmt) → s.outline.dump = s.dump
  | .assign target value => by
    simp only [Stmt.outline, Stmt.dump, Expr.dump, target.dump_outline, value.dump_outline]
  | .increment target | .decrement target | .read target => by
    simp only [Stmt.outline, Stmt.dump, Expr.dump, target.dump_outline]
  -- a loop and a branch without an else have the same keys, so both have the outline of the branch
  | .ifThen cond ⟨decls, stmts⟩ | .loop cond ⟨decls, stmts⟩ => by
    simp only [Stmt.outline, Stmt.dump, cond.dump_outline, map_map_of_comp VarDecl.dump_outline,
      Stmt.dumpAll_outline stmts]
  | .ifElse cond ⟨decls, stmts⟩ ⟨elseDecls, elseStmts⟩ => by
    simp only [Stmt.outline, Stmt.dump, cond.dump_outline, map_map_of_comp VarDecl.dump_outline,
      Stmt.dumpAll_outline stmts, Stmt.dumpAll_outline elseStmts]
  | .write value | .ret (some value) => by simp only [Stmt.outline, Stmt.dump, value.dump_outline]
  | .call callee args => by
    simp only [Stmt.outline, Stmt.dump, Expr.dump, callee.dump_bare, Expr.dumpAll_outline args]
  -- a return without a value has a dump of its own and is its own outline
  | .ret none => by rw [Stmt.outline]

theorem Stmt.dumpAll_outline :
    (ss : List Stmt) → Stmt.dumpAll (Stmt.outlineAll ss) = Stmt.dumpAll ss
  | [] => rfl
  | s :: ss => by
    simp only [Stmt.outlineAll, Stmt.dumpAll, s.dump_outline, Stmt.dumpAll_outline ss]

end

theorem Block.dump_outline (b : Block Stmt) : b.outline.dump = b.dump := by
  simp only [Block.outline, Block.dump, map_map_of_comp VarDecl.dump_outline,
    Stmt.dumpAll_outline]

theorem Formal.dump_outline (f : Formal) : f.outline.dump = f.dump := by
  simp only [Formal.outline, Formal.dump, TypeRef.dump_outline, Ident.dump_bare]

theorem FuncDecl.dump_outline (f : FuncDecl) : f.outline.dump = f.dump := by
  simp only [FuncDecl.outline, FuncDecl.dump, TypeRef.dump_outline, Ident.dump_bare,
    map_map_of_comp Formal.dump_outline, Block.dump_outline]

theorem StructDecl.dump_outline (s : StructDecl) : s.outline.dump = s.dump := by
  simp only [StructDecl.outline, StructDecl.dump, Ident.dump_bare,
    map_map_of_comp VarDecl.dump_outline]

theorem Decl.dump_outline (d : Decl) : d.outline.dump = d.dump := by
  cases d with
  | var decl => exact decl.dump_outline
  | func decl => exact decl.dump_outline
  | struct decl => exact decl.dump_outline

/-- A dump shows no more of a program than its outline. -/
theorem Program.dump_outline (p : Program) : p.outline.dump = p.dump := by
  simp only [Program.outline, Program.dump, map_map_of_comp Decl.dump_outline]

/-! ## No less than the outline -/

/-- An identifier, read off its dump; so are the other parts of a tree below. What is read off other
values does not matter. -/
def Ident.ofDump : Value → Ident
  | .object [("line", .int line), ("col", .int col), ("name", .text name), ("sym", .null)] =>
    ⟨⟨line, col⟩, name, none⟩
  | _ => ⟨⟨0, 0⟩, "", none⟩

def TypeRef.ofDump : Value → TypeRef
  | .object [("id", id)] => .struct (.ofDump id)
  | _ => .void

def Loc.ofDump : Value → Loc
  | .object [("loc", left), ("id", id)] => .field (Loc.ofDump left) (.ofDump id)
  | id => .var (.ofDump id)

mutual

/-- The outline of an expression, read off its dump: the keys tell which expression it is, and a
position alone is a truth value. -/
def Expr.ofDump : Value → Expr
  | .object [("line", .int line), ("col", .int col)] => .trueLit ⟨line, col⟩
  | .object [("line", .int line), ("col", .int col), ("value", .int value)] =>
    .intLit ⟨line, col⟩ value
  | .object [("line", .int line), ("col", .int col), ("value", .text literal)] =>
    .strLit ⟨line, col⟩ literal
  | .object [("lhs", target), ("exp", value)] => .assign (.ofDump target) (Expr.ofDump value)
  | .object [("id", callee), ("args", .list args)] => .call (.ofDump callee) (Expr.allOfDump args)
  | .object [("op", .text op), ("exp", operand)] => .unary op (Expr.ofDump operand)
  | .object [("op", .text op), ("left", left), ("right", right)] =>
    .binary op (Expr.ofDump left) (Expr.ofDump right)
  | location => .loc (.ofDump location)

/-- The outlines of expressions behind each other, read off their dumps. -/
def Expr.allOfDump : List Value → List Expr
  | [] => []
  | v :: vs => Expr.ofDump v :: Expr.allOfDump vs

end

def VarDecl.ofDump : Value → VarDecl
  | .object [("type", type), ("id", id), ("is_struct_field", .bool isField)] =>
    ⟨.ofDump type, .ofDump id, isField⟩
  | _ => ⟨.void, .ofDump .null, false⟩

mutual

/-- The outline of a statement, read off its dump: the keys tell which statement it is, as far as
a dump tells. -/
def Stmt.ofDump : Value → Stmt
  | .object [("assign", .object [("lhs", target), ("exp", value)])] =>
    .assign (.ofDump target) (.ofDump value)
  | .object [("cond", cond), ("decls", .list decls), ("stmts", .list stmts)] =>
    .ifThen (.ofDump cond) ⟨decls.map .ofDump, Stmt.allOfDump stmts⟩
  | .object [("cond", cond), ("then_decls", .list decls), ("then_stmts", .list stmts),
      ("else_decls", .list elseDecls), ("else_stmts", .list elseStmts)] =>
    .ifElse (.ofDump cond) ⟨decls.map .ofDump, Stmt.allOfDump stmts⟩
      ⟨elseDecls.map .ofDump, Stmt.allOfDump elseStmts⟩
  | .object [("call", .object [("id", callee), ("args", .list args)])] =>
    .call (.ofDump callee) (Expr.allOfDump args)
  | .object [("exp", .object value)] => .write (.ofDump (.object value))
  | _ => .ret none

/-- The outlines of statements behind each other, read off their dumps. -/
def Stmt.allOfDump : List Value → List Stmt
  | [] => []
  | v :: vs => Stmt.ofDump v :: Stmt.allOfDump vs

end

def Block.ofDump : Value → Block Stmt
  | .object [("decls", .list decls), ("stmts", .list stmts)] =>
    ⟨decls.map .ofDump, Stmt.allOfDump stmts⟩
  | _ => {}

def Formal.ofDump : Value → Formal
  | .object [("type", type), ("id", id)] => ⟨.ofDump type, .ofDump id⟩
  | _ => ⟨.void, .ofDump .null⟩

/-- The outline of a declaration, read off its dump. -/
def Decl.ofDump : Value → Decl
  | .object [("return_type", result), ("id", id), ("formals", .list formals), ("body", body)] =>
    .func ⟨.ofDump result, .ofDump id, formals.map .ofDump, .ofDump body⟩
  | .object [("id", id), ("fields", .list fields)] => .struct ⟨.ofDump id, fields.map .ofDump⟩
  | decl => .var (.ofDump decl)

/-- The outline of a program, read off its dump. -/
def Program.ofDump : Value → Program
  | .object [("decls", .list decls)] => ⟨decls.map .ofDump⟩
  | _ => {}

theorem Ident.ofDump_dump (id : Ident) : Ident.ofDump id.dump = id.bare := rfl

theorem TypeRef.ofDump_dump (type : TypeRef) : TypeRef.ofDump type.dump = type.outline := by
  cases type <;> rfl

theorem Loc.ofDump_dump (location : Loc) : Loc.ofDump location.dump = location.outline := by
  induction location with
  | var id => rfl
  | field left id ih => simp only [Loc.dump, Loc.ofDump, Loc.outline, ih, Ident.ofDump_dump]

/-- The dump of a location is none of another expression. -/
theorem Expr.ofDump_location (location : Loc) :
    Expr.ofDump location.dump = .loc (.ofDump location.dump) := by
  cases location with
  | var id => rfl
  | field left id => rw [Loc.dump, Expr.ofDump] <;> simp

mutual

/-- The outline of an expression is read off its dump. -/
theorem Expr.ofDump_dump : (e : Expr) → Expr.ofDump e.dump = e.outline
  | .trueLit pos | .falseLit pos => by
    simp only [Expr.dump, Position.entries, Expr.ofDump, Expr.outline]
  | .intLit pos value => by
    simp only [Expr.dump, Position.entries, List.cons_append, List.nil_append, Expr.ofDump,
      Expr.outline]
  | .strLit pos literal => by
    simp only [Expr.dump, Position.entries, List.cons_append, List.nil_append, Expr.ofDump,
      Expr.outline]
  | .loc location => by
    -- a location is dumped as it is, without a key of its own
    simp only [Expr.dump, Expr.ofDump_location, Expr.outline, location.ofDump_dump]
  | .assign target value => by
    simp only [Expr.dump, Expr.ofDump, Expr.outline, target.ofDump_dump, value.ofDump_dump]
  | .call callee args => by
    simp only [Expr.dump, Expr.ofDump, Expr.outline, callee.ofDump_dump,
      Expr.allOfDump_dumpAll args]
  | .unary op operand => by
    simp only [Expr.dump, Expr.ofDump, Expr.outline, operand.ofDump_dump]
  | .binary op left right => by
    simp only [Expr.dump, Expr.ofDump, Expr.outline, left.ofDump_dump, right.ofDump_dump]

theorem Expr.allOfDump_dumpAll :
    (es : List Expr) → Expr.allOfDump (Expr.dumpAll es) = Expr.outlineAll es
  | [] => rfl
  | e :: es => by
    simp only [Expr.dumpAll, Expr.allOfDump, Expr.outlineAll, e.ofDump_dump,
      Expr.allOfDump_dumpAll es]

end

theorem VarDecl.ofDump_dump (d : VarDecl) : VarDecl.ofDump d.dump = d.outline := by
  simp only [VarDecl.dump, VarDecl.ofDump, VarDecl.outline, TypeRef.ofDump_dump,
    Ident.ofDump_dump]

/-- The dump of an expression is an object, unlike that of a result that is not there. -/
theorem Expr.dump_eq_object (e : Expr) : ∃ entries, e.dump = .object entries := by
  cases e with
  | loc location => cases location <;> exact ⟨_, by rw [Expr.dump]; rfl⟩
  | _ => exact ⟨_, by rw [Expr.dump]⟩

/-- A single expression is read as one that is written out. -/
theorem Stmt.ofDump_write (e : Expr) :
    Stmt.ofDump (.object [("exp", e.dump)]) = .write e.outline := by
  obtain ⟨entries, hObject⟩ := e.dump_eq_object
  rw [← e.ofDump_dump, hObject, Stmt.ofDump]

mutual

/-- The outline of a statement is read off its dump. -/
theorem Stmt.ofDump_dump : (s : Stmt) → Stmt.ofDump s.dump = s.outline
  | .assign target value => by
    simp only [Stmt.dump, Expr.dump, Stmt.ofDump, Stmt.outline, target.ofDump_dump,
      value.ofDump_dump]
  | .increment target | .decrement target | .read target => by
    -- a location looks like the expression that reads it
    have hExpr : target.dump = (Expr.loc target).dump := by rw [Expr.dump]
    simp only [Stmt.dump, hExpr, Stmt.ofDump_write, Stmt.outline, Expr.outline]
  | .ifThen cond ⟨decls, stmts⟩ | .loop cond ⟨decls, stmts⟩ => by
    simp only [Stmt.dump, Stmt.ofDump, Stmt.outline, cond.ofDump_dump,
      map_map_of_comp VarDecl.ofDump_dump, Stmt.allOfDump_dumpAll stmts]
  | .ifElse cond ⟨decls, stmts⟩ ⟨elseDecls, elseStmts⟩ => by
    simp only [Stmt.dump, Stmt.ofDump, Stmt.outline, cond.ofDump_dump,
      map_map_of_comp VarDecl.ofDump_dump, Stmt.allOfDump_dumpAll stmts,
      Stmt.allOfDump_dumpAll elseStmts]
  | .write value | .ret (some value) => by simp only [Stmt.dump, Stmt.ofDump_write, Stmt.outline]
  | .call callee args => by
    simp only [Stmt.dump, Expr.dump, Stmt.ofDump, Stmt.outline, callee.ofDump_dump,
      Expr.allOfDump_dumpAll args]
  | .ret none => by
    -- the only statement with an expression that is not there
    rw [Stmt.dump, Stmt.outline]
    rfl

theorem Stmt.allOfDump_dumpAll :
    (ss : List Stmt) → Stmt.allOfDump (Stmt.dumpAll ss) = Stmt.outlineAll ss
  | [] => rfl
  | s :: ss => by
    simp only [Stmt.dumpAll, Stmt.allOfDump, Stmt.outlineAll, s.ofDump_dump,
      Stmt.allOfDump_dumpAll ss]

end

theorem Block.ofDump_dump (b : Block Stmt) : Block.ofDump b.dump = b.outline := by
  simp only [Block.dump, Block.ofDump, Block.outline, map_map_of_comp VarDecl.ofDump_dump,
    Stmt.allOfDump_dumpAll]

theorem Formal.ofDump_dump (f : Formal) : Formal.ofDump f.dump = f.outline := by
  simp only [Formal.dump, Formal.ofDump, Formal.outline, TypeRef.ofDump_dump, Ident.ofDump_dump]

theorem Decl.ofDump_dump (d : Decl) : Decl.ofDump d.dump = d.outline := by
  cases d with
  | var decl => exact congrArg Decl.var decl.ofDump_dump
  | func decl =>
    simp only [Decl.dump, FuncDecl.dump, Decl.ofDump, Decl.outline, FuncDecl.outline,
      TypeRef.ofDump_dump, Ident.ofDump_dump, map_map_of_comp Formal.ofDump_dump,
      Block.ofDump_dump]
  | struct decl =>
    simp only [Decl.dump, StructDecl.dump, Decl.ofDump, Decl.outline, StructDecl.outline,
      Ident.ofDump_dump, map_map_of_comp VarDecl.ofDump_dump]

/-- The outline of a program is read off its dump. -/
theorem Program.ofDump_dump (p : Program) : Program.ofDump p.dump = p.outline := by
  simp only [Program.dump, Program.ofDump, Program.outline, map_map_of_comp Decl.ofDump_dump]

/-- Programs have one dump if and only if they have one outline. -/
theorem Program.dump_eq_iff {p q : Program} : p.dump = q.dump ↔ p.outline = q.outline := by
  constructor
  · intro hDump
    rw [← p.ofDump_dump, hDump, q.ofDump_dump]
  · intro hOutline
    rw [← p.dump_outline, hOutline, q.dump_outline]

end NameResolution
