import NameResolution.Analysis.Statement

/-!
# Whole programs — functions, structs and the order of declarations

A function or a struct is declared before its own parts are walked, so they can refer to it; if its
name is taken, its parts are walked all the same. The formals of a function and the variables of
its body share one scope. The fields of a struct live in a scope that is never opened.
-/

namespace NameResolution

open Analysis

/-! ## Functions -/

/-- Resolves the variables of a function body; `seen` holds the names of the ones before. The first
variable named like a formal passes, any later one of that name is reported. -/
def resolveLocals (seen : List String) : List VarDecl → Resolve (List VarDecl)
  | [] => pure []
  | d :: ds => do
    let t ← getTable
    let repeatsFormal := seen.contains d.id.name && (t.lookupLocal d.id.name).any Symbol.isFormal
    let d' ← if repeatsFormal then do
        reportAt .multiplyDeclared d.id
        pure d
      else d.resolve
    let ds' ← resolveLocals (d.id.name :: seen) ds
    pure (d' :: ds')

/-- Resolves the body of a function inside the scope of its formals. -/
def resolveBody (body : Block Stmt) : Resolve (Block Stmt) := do
  let decls ← resolveLocals [] body.decls
  let stmts ← Stmt.resolveAll body.stmts
  pure ⟨decls, stmts⟩

/-- Declares a function, and resolves its formals and its body in one scope. -/
def FuncDecl.resolve (f : FuncDecl) : Resolve FuncDecl := do
  let id ← declareHere f.id (.function f.result.name f.paramTypes)
  inScope do
    let formals ← f.formals.mapM Formal.resolve
    let body ← resolveBody f.body
    pure { f with id := id, formals := formals, body := body }

/-! ## Structs -/

/-- Declares a struct with a new scope for its fields, and declares the fields there. -/
def StructDecl.resolve (s : StructDecl) : Resolve StructDecl := do
  let scope ← newScope
  let id ← declareHere s.id (.structDecl scope)
  let fields ← s.fields.mapM (VarDecl.resolveIn scope)
  pure { s with id := id, fields := fields }

/-! ## Programs -/

/-- Resolves a declaration of the global scope. -/
def Decl.resolve : Decl → Resolve Decl
  | var decl => Decl.var <$> decl.resolve
  | func decl => Decl.func <$> decl.resolve
  | struct decl => Decl.struct <$> decl.resolve

/-- Resolves all declarations of a program in order. -/
def Program.resolve (p : Program) : Resolve Program := do
  let decls ← p.decls.mapM Decl.resolve
  pure ⟨decls⟩

end NameResolution
