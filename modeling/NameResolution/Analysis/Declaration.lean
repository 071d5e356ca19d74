import NameResolution.Analysis.Resolve

/-!
# Variables and formals — declarations without a body

A variable is checked in a fixed order: a name that is a formal of this very scope stands for the
formal; a variable of type `void` is refused; a struct type must name a visible struct; and the
name must be free in its scope.
-/

namespace NameResolution

open Analysis

/-- Declares a variable or a field in a scope, with a meaning that fits its type. -/
def VarDecl.resolveIn (scope : ScopeId) (d : VarDecl) : Resolve VarDecl := do
  let t ← getTable
  match ((t.scope scope).lookup d.id.name).filter Symbol.isFormal with
  -- only a formal gives way to a variable of its name; any other binding refuses the declaration
  | some formal => pure { d with id := d.id.bind formal }
  | none =>
    match d.type with
    -- a variable without a type is refused before its name is looked at
    | .void =>
      reportAt .declaredVoid d.id
      pure d
    | .struct structId =>
      -- the struct has to be known by now, so a struct cannot hold itself
      match t.lookupStruct structId.name with
      | none =>
        reportAt .invalidStructType structId
        pure d
      | some struct =>
        let id ← declare scope d.id (.structVar structId.name)
        pure { d with type := .struct (structId.bind struct), id := id }
    | .boolean | .integer =>
      let id ← declare scope d.id (.regular d.type.name)
      pure { d with id := id }

/-- Declares a variable in the innermost scope. -/
def VarDecl.resolve (d : VarDecl) : Resolve VarDecl := do
  d.resolveIn (← currentScope)

/-- Declares a formal in the innermost scope. Its type is not looked at. -/
def Formal.resolve (f : Formal) : Resolve Formal := do
  let id ← declareHere f.id (.formal f.type.name)
  pure { f with id := id }

end NameResolution
