import NameResolution.Proofs.Tree.Sites

/-!
# Parts of a tree — what a walk comes to, one thing after another

A walk over a program opens and closes scopes, declares names and looks names up. A tree is listed
here as the sequence of these steps, in the order of the text. Scopes are opened in front of the
formals of a function and of the declarations of a block, and closed behind the last statement.

* `Program.parts` — the steps of a program.
* `Program.vars`, `Program.fields`, `Program.structs` — the declarations among them.
* `Program.accesses` — every field access, also those inside of others.
-/

namespace NameResolution

/-- A step of a walk. -/
inductive Part where
  /-- A new innermost scope begins. -/
  | opens
  /-- The innermost scope ends. -/
  | closes
  /-- The name of a function, with its result type and the types of its parameters. -/
  | func (id : Ident) (result : String) (params : List String)
  | formal (f : Formal)
  | var (d : VarDecl)
  /-- A variable of a function body that is named like an earlier one of the same body. -/
  | again (d : VarDecl)
  /-- The name of a struct and its fields. -/
  | struct (s : StructDecl)
  /-- A location or the function of a call. -/
  | use (spot : Spot)
deriving Repr

/-! ## Listing a tree -/

/-- The uses at some spots. -/
def usesOf (spots : List Spot) : List Part :=
  spots.map .use

/-- Parts in a scope of their own. -/
def nested (parts : List Part) : List Part :=
  .opens :: (parts ++ [.closes])

/-- The variables of a function body; `seen` holds the names of the ones before. -/
def localParts (seen : List String) : List VarDecl → List Part
  | [] => []
  | d :: ds =>
    (if seen.contains d.id.name then .again d else .var d) :: localParts (d.id.name :: seen) ds

mutual

/-- The parts of a statement, in the order of the walk. -/
def Stmt.parts : Stmt → List Part
  | .assign target value => .use (.location target) :: usesOf value.spots
  | .increment target | .decrement target | .read target => [.use (.location target)]
  | .ifThen cond ⟨decls, stmts⟩ =>
    usesOf cond.spots ++ nested (decls.map .var ++ Stmt.partsAll stmts)
  | .ifElse cond ⟨decls, stmts⟩ ⟨elseDecls, elseStmts⟩ =>
    usesOf cond.spots ++ (nested (decls.map .var ++ Stmt.partsAll stmts) ++
      nested (elseDecls.map .var ++ Stmt.partsAll elseStmts))
  | .loop cond ⟨decls, stmts⟩ =>
    usesOf cond.spots ++ nested (decls.map .var ++ Stmt.partsAll stmts)
  | .write value => usesOf value.spots
  | .call callee args => .use (.callee callee) :: usesOf (Expr.spotsAll args)
  | .ret none => []
  | .ret (some value) => usesOf value.spots

def Stmt.partsAll : List Stmt → List Part
  | [] => []
  | s :: ss => s.parts ++ Stmt.partsAll ss

end

/-- The name of a function is outside of the scope with its formals, variables and statements. -/
def FuncDecl.parts (f : FuncDecl) : List Part :=
  .func f.id f.result.name f.paramTypes ::
    nested (f.formals.map .formal ++ (localParts [] f.body.decls ++ Stmt.partsAll f.body.stmts))

/-- The parts of a declaration of the program. -/
def Decl.parts : Decl → List Part
  | var decl => [.var decl]
  | func decl => decl.parts
  | struct decl => [.struct decl]

/-- Every part of a program. -/
def Program.parts (p : Program) : List Part :=
  p.decls.flatMap Decl.parts

/-! ## Declarations and accesses -/

namespace Part

/-- The variable that is declared. -/
def vars : Part → List VarDecl
  | var d | again d => [d]
  | opens | closes | func _ _ _ | formal _ | struct _ | use _ => []

/-- The struct that is declared. -/
def structs : Part → List StructDecl
  | struct s => [s]
  | opens | closes | func _ _ _ | formal _ | var _ | again _ | use _ => []

/-- The fields that are declared. -/
def fields (part : Part) : List VarDecl :=
  part.structs.flatMap StructDecl.fields

/-- The variables and fields that are declared. -/
def varDecls (part : Part) : List VarDecl :=
  part.vars ++ part.fields

@[simp] theorem varDecls_struct (s : StructDecl) : (struct s).varDecls = s.fields :=
  List.append_nil s.fields

end Part

/-- Every field access in a location, as its left side and the field. -/
def Loc.accesses : Loc → List (Loc × Ident)
  | var _ => []
  | field left id => left.accesses ++ [(left, id)]

/-- The field accesses of a use. -/
def Part.accesses : Part → List (Loc × Ident)
  | use (.location l) => l.accesses
  | _ => []

namespace Program

/-- Every variable of a program, global ones and those of functions and blocks. -/
def vars (p : Program) : List VarDecl :=
  p.parts.flatMap Part.vars

/-- The struct declarations of a program, in the order of the text. -/
def structs (p : Program) : List StructDecl :=
  p.parts.flatMap Part.structs

/-- Every field of a struct. -/
def fields (p : Program) : List VarDecl :=
  p.parts.flatMap Part.fields

/-- Every variable and every field of a struct. -/
def varDecls (p : Program) : List VarDecl :=
  p.parts.flatMap Part.varDecls

/-- The field accesses of a program, in the order of the walk. -/
def accesses (p : Program) : List (Loc × Ident) :=
  p.parts.flatMap Part.accesses

end Program

/-! ## Lists of statements -/

theorem Stmt.partsAll_eq_flatMap (ss : List Stmt) :
    Stmt.partsAll ss = ss.flatMap Stmt.parts := by
  induction ss with
  | nil => rw [Stmt.partsAll, List.flatMap_nil]
  | cons s ss ih => rw [Stmt.partsAll, ih, List.flatMap_cons]

end NameResolution
