import NameResolution.Tree.Basic

/-!
# Field accesses — whether a tree reads or writes a field of a location

* `Program.hasAccess` — some location of the program is a field.
-/

namespace NameResolution

/-- Whether the location is a field of another one. -/
def Loc.hasAccess : Loc → Bool
  | var _ => false
  | field _ _ => true

mutual

/-- Whether a field is accessed somewhere in the expression. -/
def Expr.hasAccess : Expr → Bool
  | .trueLit _ | .falseLit _ | .intLit _ _ | .strLit _ _ => false
  | .loc location => location.hasAccess
  | .assign target value => target.hasAccess || value.hasAccess
  | .call _ args => Expr.anyAccess args
  | .unary _ operand => operand.hasAccess
  | .binary _ left right => left.hasAccess || right.hasAccess

def Expr.anyAccess : List Expr → Bool
  | [] => false
  | e :: es => e.hasAccess || Expr.anyAccess es

end

mutual

/-- Whether a field is accessed somewhere in the statement, its blocks included. -/
def Stmt.hasAccess : Stmt → Bool
  | .assign target value => target.hasAccess || value.hasAccess
  | .increment target | .decrement target | .read target => target.hasAccess
  | .ifThen cond ⟨_, stmts⟩ => cond.hasAccess || Stmt.anyAccess stmts
  | .ifElse cond ⟨_, stmts⟩ ⟨_, elseStmts⟩ =>
    cond.hasAccess || Stmt.anyAccess stmts || Stmt.anyAccess elseStmts
  | .loop cond ⟨_, stmts⟩ => cond.hasAccess || Stmt.anyAccess stmts
  | .write value => value.hasAccess
  | .call _ args => Expr.anyAccess args
  | .ret none => false
  | .ret (some value) => value.hasAccess

def Stmt.anyAccess : List Stmt → Bool
  | [] => false
  | s :: ss => s.hasAccess || Stmt.anyAccess ss

end

/-- Only the bodies of functions have locations. -/
def Decl.hasAccess : Decl → Bool
  | var _ | struct _ => false
  | func f => Stmt.anyAccess f.body.stmts

/-- Whether a field is accessed anywhere in the program. -/
def Program.hasAccess (p : Program) : Bool :=
  p.decls.any Decl.hasAccess

/-- The list version is the test of one expression on each. -/
theorem Expr.anyAccess_eq_any (es : List Expr) : Expr.anyAccess es = es.any Expr.hasAccess := by
  induction es with
  | nil => rw [Expr.anyAccess, List.any_nil]
  | cons e es ih => rw [Expr.anyAccess, ih, List.any_cons]

/-- The list version is the test of one statement on each. -/
theorem Stmt.anyAccess_eq_any (ss : List Stmt) : Stmt.anyAccess ss = ss.any Stmt.hasAccess := by
  induction ss with
  | nil => rw [Stmt.anyAccess, List.any_nil]
  | cons s ss ih => rw [Stmt.anyAccess, ih, List.any_cons]

end NameResolution
