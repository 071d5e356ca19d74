import NameResolution.Tree.Idents

/-!
# Marks of a tree — its names, literals and operators, in the order of the text

The leaves and the operators of a tree, listed from left to right, are what a text says beside its
keywords, brackets and separators. Without the operators the list is that of all nodes with a
position, each node before the ones inside it.

* `Program.marks` — every name, literal and operator of a program.
* `Program.marks_idents` — the names among them are the identifiers of the program.
-/

namespace NameResolution

/-- A name, a literal or an operator. -/
inductive Mark where
  | name (id : Ident)
  | truth (pos : Position) (value : Bool)
  | number (pos : Position) (value : Int)
  | string (pos : Position) (literal : String)
  | operator (op : String)
deriving DecidableEq, Repr

namespace Mark

/-- The identifier that the mark is. -/
def ident? : Mark → Option Ident
  | name id => some id
  | truth _ _ | number _ _ | string _ _ | operator _ => none

/-- The position of a name or a literal. -/
def pos? : Mark → Option Position
  | name id => some id.pos
  | truth pos _ | number pos _ | string pos _ => some pos
  | operator _ => none

end Mark

/-! ## Types and expressions -/

/-- Only a struct type leaves a mark. -/
def TypeRef.marks : TypeRef → List Mark
  | struct id => [.name id]
  | boolean | integer | void => []

/-- The marks of a location, with an operator in front of each field. -/
def Loc.marks : Loc → List Mark
  | var id => [.name id]
  | field left id => left.marks ++ [.operator ":", .name id]

mutual

/-- The marks of an expression, in the order of the text. -/
def Expr.marks : Expr → List Mark
  | .trueLit pos => [.truth pos true]
  | .falseLit pos => [.truth pos false]
  | .intLit pos value => [.number pos value]
  | .strLit pos literal => [.string pos literal]
  | .loc location => location.marks
  | .assign target value => target.marks ++ .operator "=" :: value.marks
  | .call callee args => .name callee :: Expr.marksAll args
  | .unary op operand => .operator op :: operand.marks
  | .binary op left right => left.marks ++ .operator op :: right.marks

def Expr.marksAll : List Expr → List Mark
  | [] => []
  | e :: es => e.marks ++ Expr.marksAll es

end

/-! ## Statements -/

def VarDecl.marks (d : VarDecl) : List Mark :=
  d.type.marks ++ [.name d.id]

mutual

/-- The marks of a statement, in the order of the text. -/
def Stmt.marks : Stmt → List Mark
  | .assign target value => target.marks ++ .operator "=" :: value.marks
  | .increment target => target.marks ++ [.operator "++"]
  | .decrement target => target.marks ++ [.operator "--"]
  | .ifThen cond ⟨decls, stmts⟩ =>
    cond.marks ++ (decls.flatMap VarDecl.marks ++ Stmt.marksAll stmts)
  | .ifElse cond ⟨decls, stmts⟩ ⟨elseDecls, elseStmts⟩ =>
    cond.marks ++ (decls.flatMap VarDecl.marks ++ Stmt.marksAll stmts) ++
      (elseDecls.flatMap VarDecl.marks ++ Stmt.marksAll elseStmts)
  | .loop cond ⟨decls, stmts⟩ =>
    cond.marks ++ (decls.flatMap VarDecl.marks ++ Stmt.marksAll stmts)
  | .read target => .operator "->" :: target.marks
  | .write value => .operator "<-" :: value.marks
  | .call callee args => .name callee :: Expr.marksAll args
  | .ret none => []
  | .ret (some value) => value.marks

def Stmt.marksAll : List Stmt → List Mark
  | [] => []
  | s :: ss => s.marks ++ Stmt.marksAll ss

end

/-! ## Declarations -/

def Formal.marks (f : Formal) : List Mark :=
  f.type.marks ++ [.name f.id]

/-- The marks of a function: its result, its name, its formals and its body. -/
def FuncDecl.marks (f : FuncDecl) : List Mark :=
  f.result.marks ++ [.name f.id] ++ f.formals.flatMap Formal.marks ++
    (f.body.decls.flatMap VarDecl.marks ++ Stmt.marksAll f.body.stmts)

def StructDecl.marks (s : StructDecl) : List Mark :=
  .name s.id :: s.fields.flatMap VarDecl.marks

def Decl.marks : Decl → List Mark
  | var decl => decl.marks
  | func decl => decl.marks
  | struct decl => decl.marks

/-- Every name, literal and operator of a program. -/
def Program.marks (p : Program) : List Mark :=
  p.decls.flatMap Decl.marks

/-- The positions of all nodes that have one. -/
def Program.positions (p : Program) : List Position :=
  p.marks.filterMap Mark.pos?

/-! ## Lists -/

theorem Expr.marksAll_eq_flatMap (es : List Expr) :
    Expr.marksAll es = es.flatMap Expr.marks := by
  induction es with
  | nil => rw [Expr.marksAll, List.flatMap_nil]
  | cons e es ih => rw [Expr.marksAll, ih, List.flatMap_cons]

theorem Stmt.marksAll_eq_flatMap (ss : List Stmt) :
    Stmt.marksAll ss = ss.flatMap Stmt.marks := by
  induction ss with
  | nil => rw [Stmt.marksAll, List.flatMap_nil]
  | cons s ss ih => rw [Stmt.marksAll, ih, List.flatMap_cons]

/-! ## The names among the marks -/

@[simp] theorem filterMap_ident_name (id : Ident) (marks : List Mark) :
    (Mark.name id :: marks).filterMap Mark.ident? = id :: marks.filterMap Mark.ident? := rfl

@[simp] theorem filterMap_ident_operator (op : String) (marks : List Mark) :
    (Mark.operator op :: marks).filterMap Mark.ident? = marks.filterMap Mark.ident? := rfl

/-- What holds of the items of a list holds of the list. -/
theorem filterMap_flatMap_eq {α : Type} {marks : α → List Mark} {idents : α → List Ident}
    (h : ∀ x, (marks x).filterMap Mark.ident? = idents x) (xs : List α) :
    (xs.flatMap marks).filterMap Mark.ident? = xs.flatMap idents := by
  induction xs with
  | nil => rfl
  | cons x xs ih => rw [List.flatMap_cons, List.filterMap_append, h, ih, List.flatMap_cons]

/-- The names among the marks of a type are its identifiers. -/
theorem TypeRef.marks_idents (type : TypeRef) :
    type.marks.filterMap Mark.ident? = type.idents := by
  cases type <;> rfl

/-- The names among the marks of a location are its identifiers. -/
theorem Loc.marks_idents (l : Loc) : l.marks.filterMap Mark.ident? = l.idents := by
  induction l with
  | var id => rfl
  | field left id ih => rw [Loc.marks, List.filterMap_append, ih]; rfl

/-- The names among the marks of a variable are its identifiers. -/
theorem VarDecl.marks_idents (d : VarDecl) : d.marks.filterMap Mark.ident? = d.idents := by
  rw [VarDecl.marks, List.filterMap_append, d.type.marks_idents]
  rfl

/-- The names among the marks of a formal are its identifiers. -/
theorem Formal.marks_idents (f : Formal) : f.marks.filterMap Mark.ident? = f.idents := by
  rw [Formal.marks, List.filterMap_append, f.type.marks_idents]
  rfl

mutual

/-- The names among the marks of an expression are its identifiers. -/
theorem Expr.marks_idents : (e : Expr) → e.marks.filterMap Mark.ident? = e.idents
  | .trueLit _ | .falseLit _ | .intLit _ _ | .strLit _ _ => rfl
  | .loc location => by rw [Expr.marks, Expr.idents, location.marks_idents]
  | .assign target value => by
    simp [Expr.marks, Expr.idents, target.marks_idents, Expr.marks_idents value]
  | .call callee args => by
    simp [Expr.marks, Expr.idents, Expr.marksAll_idents args]
  | .unary op operand => by simp [Expr.marks, Expr.idents, Expr.marks_idents operand]
  | .binary op left right => by
    simp [Expr.marks, Expr.idents, Expr.marks_idents left, Expr.marks_idents right]

theorem Expr.marksAll_idents :
    (es : List Expr) → (Expr.marksAll es).filterMap Mark.ident? = Expr.identsAll es
  | [] => rfl
  | e :: es => by
    rw [Expr.marksAll, Expr.identsAll, List.filterMap_append, Expr.marks_idents e,
      Expr.marksAll_idents es]

end

mutual

/-- The names among the marks of a statement are its identifiers. -/
theorem Stmt.marks_idents : (s : Stmt) → s.marks.filterMap Mark.ident? = s.idents
  | .assign target value => by
    simp [Stmt.marks, Stmt.idents, target.marks_idents, value.marks_idents]
  | .increment target | .decrement target | .read target => by
    simp [Stmt.marks, Stmt.idents, target.marks_idents]
  | .ifThen cond ⟨decls, stmts⟩ | .loop cond ⟨decls, stmts⟩ => by
    simp [Stmt.marks, Stmt.idents, cond.marks_idents, Stmt.marksAll_idents stmts,
      filterMap_flatMap_eq VarDecl.marks_idents]
  | .ifElse cond ⟨decls, stmts⟩ ⟨elseDecls, elseStmts⟩ => by
    simp [Stmt.marks, Stmt.idents, cond.marks_idents, Stmt.marksAll_idents stmts,
      Stmt.marksAll_idents elseStmts, filterMap_flatMap_eq VarDecl.marks_idents]
  | .write value => by simp [Stmt.marks, Stmt.idents, value.marks_idents]
  | .call callee args => by
    simp [Stmt.marks, Stmt.idents, Expr.marksAll_idents]
  | .ret none => rfl
  | .ret (some value) => value.marks_idents

theorem Stmt.marksAll_idents :
    (ss : List Stmt) → (Stmt.marksAll ss).filterMap Mark.ident? = Stmt.identsAll ss
  | [] => rfl
  | s :: ss => by
    rw [Stmt.marksAll, Stmt.identsAll, List.filterMap_append, Stmt.marks_idents s,
      Stmt.marksAll_idents ss]

end

/-- The names among the marks of a declaration are its identifiers. -/
theorem Decl.marks_idents (d : Decl) : d.marks.filterMap Mark.ident? = d.idents := by
  cases d with
  | var d => exact d.marks_idents
  | func f =>
    simp [Decl.marks, Decl.idents, FuncDecl.marks, FuncDecl.idents, Block.idents,
      f.result.marks_idents, filterMap_flatMap_eq Formal.marks_idents,
      filterMap_flatMap_eq VarDecl.marks_idents, Stmt.marksAll_idents]
  | struct s =>
    simp [Decl.marks, Decl.idents, StructDecl.marks, StructDecl.idents,
      filterMap_flatMap_eq VarDecl.marks_idents]

/-- The names among the marks of a program are its identifiers. -/
theorem Program.marks_idents (p : Program) : p.marks.filterMap Mark.ident? = p.idents :=
  filterMap_flatMap_eq Decl.marks_idents p.decls

/-- The identifiers are some of the nodes that have positions. -/
theorem Program.idents_positions (p : Program) :
    (p.idents.map Ident.pos).Sublist p.positions := by
  rw [← p.marks_idents, Program.positions]
  induction p.marks with
  | nil => exact List.Sublist.refl _
  | cons mark marks ih =>
    cases mark with
    | name id => exact ih.cons_cons id.pos
    | truth pos _ | number pos _ | string pos _ => exact ih.cons pos
    | operator _ => exact ih

end NameResolution
