import NameResolution.Tree.Idents

/-!
# Sites — the places of a tree at which names are declared and used

A tree alone says which declarations are around a place, and which of them come before it. Each
site of a program is listed here with those declarations, in the order of the text.

The scopes around a site are, from the inside out: each block whose declarations or statements hold
it, the function with its formals and the variables of its body, and the global scope. A condition
does not belong to the block behind it. The name of a function or of a struct comes before its own
parts.

* `Program.sites` — every declared name, every location and every callee, with its scopes.
* `Scopes.find` — what a name stands for in the scopes around it.
-/

namespace NameResolution

/-! ## Places and what is around them -/

/-- The scopes around a place, the innermost first. Each one lists the identifiers that it declares
before the place. -/
abbrev Scopes := List (List Ident)

/-- What stands at a site. -/
inductive Spot where
  /-- A declared name, and the struct name in its type if there is one. -/
  | declaration (id : Ident) (typeNames : List Ident)
  /-- A variable with the fields accessed from it. -/
  | location (location : Loc)
  /-- The function of a call. -/
  | callee (id : Ident)
deriving Repr

/-- A place where a name is declared or used. -/
structure Site where
  scopes : Scopes
  spot : Spot
deriving Repr

/-! ## Expressions and statements -/

mutual

/-- The uses in an expression. -/
def Expr.spots : Expr → List Spot
  | .trueLit _ | .falseLit _ | .intLit _ _ | .strLit _ _ => []
  | .loc location => [.location location]
  | .assign target value => .location target :: value.spots
  | .call callee args => .callee callee :: Expr.spotsAll args
  | .unary _ operand => operand.spots
  | .binary _ left right => left.spots ++ right.spots

def Expr.spotsAll : List Expr → List Spot
  | [] => []
  | e :: es => e.spots ++ Expr.spotsAll es

end

/-- Sites in the same scopes. -/
def sitesIn (scopes : Scopes) (spots : List Spot) : List Site :=
  spots.map fun spot => ⟨scopes, spot⟩

/-- The sites of names that the innermost scope declares behind `inner`, each given with the struct
names in its type. -/
def declarationSites (outer : Scopes) (inner : List Ident) : List (Ident × List Ident) → List Site
  | [] => []
  | (id, typeNames) :: rest =>
    ⟨inner :: outer, .declaration id typeNames⟩ :: declarationSites outer (inner ++ [id]) rest

/-- The names that variables declare, and their types' struct names. -/
def varNames (ds : List VarDecl) : List (Ident × List Ident) :=
  ds.map fun d => (d.id, d.type.idents)

/-- The sites of a block's declarations and statements. -/
def blockSites (scopes : Scopes) (decls : List VarDecl) (stmtSites : Scopes → List Site) :
    List Site :=
  declarationSites scopes [] (varNames decls) ++ stmtSites ((decls.map (·.id)) :: scopes)

mutual

/-- The sites of a statement. The scopes it opens are closed again at its end. -/
def Stmt.sites (scopes : Scopes) : Stmt → List Site
  | .assign target value => sitesIn scopes (.location target :: value.spots)
  | .increment target | .decrement target | .read target => sitesIn scopes [.location target]
  | .ifThen cond ⟨decls, stmts⟩ =>
    sitesIn scopes cond.spots ++ blockSites scopes decls (Stmt.sitesAll · stmts)
  | .ifElse cond ⟨decls, stmts⟩ ⟨elseDecls, elseStmts⟩ =>
    sitesIn scopes cond.spots ++ (blockSites scopes decls (Stmt.sitesAll · stmts) ++
      blockSites scopes elseDecls (Stmt.sitesAll · elseStmts))
  | .loop cond ⟨decls, stmts⟩ =>
    sitesIn scopes cond.spots ++ blockSites scopes decls (Stmt.sitesAll · stmts)
  | .write value => sitesIn scopes value.spots
  | .call callee args => sitesIn scopes (.callee callee :: Expr.spotsAll args)
  | .ret none => []
  | .ret (some value) => sitesIn scopes value.spots

def Stmt.sitesAll (scopes : Scopes) : List Stmt → List Site
  | [] => []
  | s :: ss => s.sites scopes ++ Stmt.sitesAll scopes ss

end

/-! ## Declarations -/

/-- The names that formals declare. Their types are not looked at. -/
def formalNames (fs : List Formal) : List (Ident × List Ident) :=
  fs.map fun f => (f.id, [])

/-- The name that a declaration declares. -/
def Decl.id : Decl → Ident
  | var decl => decl.id
  | func decl => decl.id
  | struct decl => decl.id

/-- The sites of a function that is declared behind `globals`. Its formals and the variables of its
body share one scope. -/
def FuncDecl.sites (globals : List Ident) (f : FuncDecl) : List Site :=
  let outer := [globals ++ [f.id]]
  let names := formalNames f.formals ++ varNames f.body.decls
  ⟨[globals], .declaration f.id []⟩ :: declarationSites outer [] names ++
    Stmt.sitesAll (names.map (·.1) :: outer) f.body.stmts

/-- The sites of a struct that is declared behind `globals`. Its fields are in no scope that a name
is looked up in. -/
def StructDecl.sites (globals : List Ident) (s : StructDecl) : List Site :=
  ⟨[globals], .declaration s.id []⟩ ::
    (varNames s.fields).map fun name => ⟨[globals ++ [s.id]], .declaration name.1 name.2⟩

/-- The sites of a declaration, seen with the global names in front of it. -/
def Decl.sites (globals : List Ident) : Decl → List Site
  | var decl => [⟨[globals], .declaration decl.id decl.type.idents⟩]
  | func decl => decl.sites globals
  | struct decl => decl.sites globals

/-- The sites of declarations behind `globals`. -/
def declSites (globals : List Ident) : List Decl → List Site
  | [] => []
  | d :: ds => d.sites globals ++ declSites (globals ++ [d.id]) ds

/-- Every site of a program. -/
def Program.sites (p : Program) : List Site :=
  declSites [] p.decls

/-! ## Names in scopes -/

/-- The symbol that a scope gives a name: that of the first declaration of the name that carries
one. A declaration without a symbol has been rejected. A variable named like a formal carries the
symbol of that formal, which comes before it. -/
def firstAccepted (declared : List Ident) (name : String) : Option Symbol :=
  declared.findSome? fun id => if id.name = name then id.symbol? else none

/-- The symbol of a name in the innermost scope that has an accepted declaration of it. -/
def Scopes.find (scopes : Scopes) (name : String) : Option Symbol :=
  List.findSome? (fun declared => firstAccepted declared name) scopes

/-- The identifier that a location starts with. -/
def Loc.root : Loc → Ident
  | var id => id
  | field left _ => left.root

/-- The identifiers at a spot that are looked up in the scopes around it. -/
def Spot.lookedUp : Spot → List Ident
  | declaration _ _ => []
  | location loc => [loc.root]
  | callee id => [id]

/-! ## Lists of sites -/

theorem sitesIn_append (scopes : Scopes) (as bs : List Spot) :
    sitesIn scopes (as ++ bs) = sitesIn scopes as ++ sitesIn scopes bs :=
  List.map_append

/-- One more declaration counts only for its own name, and only if no earlier one does. -/
theorem firstAccepted_concat (declared : List Ident) (id : Ident) (name : String) :
    firstAccepted (declared ++ [id]) name =
      (firstAccepted declared name).or (if id.name = name then id.symbol? else none) := by
  rw [firstAccepted, List.findSome?_append]
  congr 1
  rw [List.findSome?_cons]
  split
  · rename_i h
    exact h.symm
  · rename_i h
    exact h.symm

end NameResolution
