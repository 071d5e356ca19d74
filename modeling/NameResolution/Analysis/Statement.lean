import NameResolution.Analysis.Declaration

/-!
# Statements — uses, and blocks with scopes of their own

The condition of a branch or a loop belongs to the scope around it; each block opens a scope.
-/

namespace NameResolution

open Analysis

/-- Resolves a block in a scope of its own: its declarations, then its statements. -/
def inBlock (decls : List VarDecl) (stmts : Resolve (List Stmt)) : Resolve (Block Stmt) :=
  inScope do
    let decls ← decls.mapM VarDecl.resolve
    let stmts ← stmts
    pure ⟨decls, stmts⟩

mutual

/-- Resolves a statement. -/
def Stmt.resolve : Stmt → Resolve Stmt
  | .assign target value => do
    let target ← useLoc target
    let value ← useExpr value
    pure (.assign target value)
  | .increment target => do
    let target ← useLoc target
    pure (.increment target)
  | .decrement target => do
    let target ← useLoc target
    pure (.decrement target)
  -- the condition is outside of the scope of the block
  | .ifThen cond ⟨decls, stmts⟩ => do
    let cond ← useExpr cond
    let body ← inBlock decls (Stmt.resolveAll stmts)
    pure (.ifThen cond body)
  | .ifElse cond ⟨decls, stmts⟩ ⟨elseDecls, elseStmts⟩ => do
    let cond ← useExpr cond
    let body ← inBlock decls (Stmt.resolveAll stmts)
    let otherwise ← inBlock elseDecls (Stmt.resolveAll elseStmts)
    pure (.ifElse cond body otherwise)
  | .loop cond ⟨decls, stmts⟩ => do
    let cond ← useExpr cond
    let body ← inBlock decls (Stmt.resolveAll stmts)
    pure (.loop cond body)
  | .read target => do
    let target ← useLoc target
    pure (.read target)
  | .write value => do
    let value ← useExpr value
    pure (.write value)
  | .call callee args => do
    let callee ← useIdent callee
    let args ← useExprs args
    pure (.call callee args)
  | .ret none => pure (.ret none)
  | .ret (some value) => do
    let value ← useExpr value
    pure (.ret (some value))

/-- Resolves statements in order. -/
def Stmt.resolveAll : List Stmt → Resolve (List Stmt)
  | [] => pure []
  | s :: ss => do
    let s ← s.resolve
    let ss ← Stmt.resolveAll ss
    pure (s :: ss)

end

end NameResolution
