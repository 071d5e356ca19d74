import NameResolution.Proofs.Tree.Parts

/-!
# Sites of parts — what is around each step of a walk

The sites of a program are listed along the tree, and its parts in the order of the walk. Both say
the same: the scopes around a site are what the parts before it have opened and declared.

* `Part.enter` — the scopes behind a part.
* `partSites` — the sites of parts, one part after another.
* `Program.partSites_eq` — they are the sites of the program.
-/

namespace NameResolution

/-! ## Sites of parts -/

/-- The scopes with one more name in the innermost one. -/
def Scopes.add (id : Ident) : Scopes → Scopes
  | [] => []
  | inner :: outer => (inner ++ [id]) :: outer

namespace Part

/-- The scopes behind a part. -/
def enter (scopes : Scopes) : Part → Scopes
  | opens => [] :: scopes
  | closes => scopes.tail
  | func id _ _ => scopes.add id
  | formal f => scopes.add f.id
  | var d | again d => scopes.add d.id
  | struct s => scopes.add s.id
  | use _ => scopes

/-- The sites of a part. The fields of a struct are declared behind its name, in a scope that no
name is looked up in. -/
def sites (scopes : Scopes) : Part → List Site
  | opens | closes => []
  | func id _ _ => [⟨scopes, .declaration id []⟩]
  | formal f => [⟨scopes, .declaration f.id []⟩]
  | var d | again d => [⟨scopes, .declaration d.id d.type.idents⟩]
  | struct s => ⟨scopes, .declaration s.id []⟩ ::
    (varNames s.fields).map fun name => ⟨scopes.add s.id, .declaration name.1 name.2⟩
  | use spot => [⟨scopes, spot⟩]

end Part

/-- The scopes behind some parts. -/
def scopesAfter (scopes : Scopes) (parts : List Part) : Scopes :=
  parts.foldl Part.enter scopes

/-- The sites of parts one after another. -/
def partSites (scopes : Scopes) : List Part → List Site
  | [] => []
  | part :: parts => part.sites scopes ++ partSites (part.enter scopes) parts

theorem scopesAfter_append (scopes : Scopes) (parts more : List Part) :
    scopesAfter scopes (parts ++ more) = scopesAfter (scopesAfter scopes parts) more :=
  List.foldl_append

theorem partSites_append (scopes : Scopes) (parts more : List Part) :
    partSites scopes (parts ++ more) =
      partSites scopes parts ++ partSites (scopesAfter scopes parts) more := by
  induction parts generalizing scopes with
  | nil => rfl
  | cons part parts ih =>
    rw [List.cons_append, partSites, partSites, ih, List.append_assoc]
    rfl

/-! ## Declarations in a row -/

/-- The parts declare the names in the innermost scope, and nothing else. -/
structure Lists (parts : List Part) (names : List (Ident × List Ident)) : Prop where
  after : ∀ inner outer, scopesAfter (inner :: outer) parts =
    (inner ++ names.map (·.1)) :: outer
  sites : ∀ inner outer, partSites (inner :: outer) parts = declarationSites outer inner names

variable {parts more : List Part} {names : List (Ident × List Ident)}

namespace Lists

theorem nil : Lists [] [] where
  after inner outer := by rw [List.map_nil, List.append_nil, scopesAfter, List.foldl_nil]
  sites _ _ := rfl

/-- A part that declares a name, in front of parts that declare the others. -/
theorem cons {part : Part} {id : Ident} {typeNames : List Ident}
    (hEnter : ∀ scopes, part.enter scopes = Scopes.add id scopes)
    (hSites : ∀ scopes, part.sites scopes = [⟨scopes, .declaration id typeNames⟩])
    (h : Lists parts names) : Lists (part :: parts) ((id, typeNames) :: names) where
  after inner outer := by
    have hRest := h.after (inner ++ [id]) outer
    rw [List.append_assoc] at hRest
    rw [scopesAfter, List.foldl_cons, hEnter]
    exact hRest
  sites inner outer := by
    rw [partSites, hSites, hEnter, declarationSites]
    exact congrArg (_ :: ·) (h.sites (inner ++ [id]) outer)

/-- Variables declare their names. -/
theorem vars (ds : List VarDecl) : Lists (ds.map .var) (varNames ds) := by
  induction ds with
  | nil => exact nil
  | cons d ds ih => exact cons (fun _ => rfl) (fun _ => rfl) ih

/-- The variables of a function body declare their names, repeated ones included. -/
theorem locals (seen : List String) (ds : List VarDecl) :
    Lists (localParts seen ds) (varNames ds) := by
  induction ds generalizing seen with
  | nil => exact nil
  | cons d ds ih =>
    rw [localParts]
    split <;> exact cons (fun _ => rfl) (fun _ => rfl) (ih _)

/-- Formals in front of other parts declare their names first. -/
theorem formals (fs : List Formal) (h : Lists parts names) :
    Lists (fs.map .formal ++ parts) (formalNames fs ++ names) := by
  induction fs with
  | nil => exact h
  | cons f fs ih => exact cons (fun _ => rfl) (fun _ => rfl) ih

end Lists

/-! ## Statements -/

/-- Behind the parts the scopes are again what they were, and the sites are these. -/
structure Returns (parts : List Part) (sites : Scopes → List Site) : Prop where
  after : ∀ scopes, scopesAfter scopes parts = scopes
  sites : ∀ scopes, partSites scopes parts = sites scopes

variable {sites sites' : Scopes → List Site}

namespace Returns

theorem nil : Returns [] fun _ => [] :=
  ⟨fun _ => rfl, fun _ => rfl⟩

/-- Parts that return to the same scopes can be put behind one another. -/
theorem append (h : Returns parts sites) (h' : Returns more sites') :
    Returns (parts ++ more) fun scopes => sites scopes ++ sites' scopes where
  after scopes := by rw [scopesAfter_append, h.after, h'.after]
  sites scopes := by rw [partSites_append, h.sites, h.after, h'.sites]

/-- Uses are the sites at their spots, and change no scope. -/
theorem uses (spots : List Spot) : Returns (usesOf spots) (sitesIn · spots) := by
  induction spots with
  | nil => exact nil
  | cons spot spots ih =>
    refine ⟨ih.after, fun scopes => ?_⟩
    exact congrArg (_ :: ·) (ih.sites scopes)

/-- A scope with its declarations and statements. -/
theorem block {inside : Scopes → List Site} (h : Lists parts names) (h' : Returns more inside) :
    Returns (nested (parts ++ more)) fun scopes =>
      declarationSites scopes [] names ++ inside (names.map (·.1) :: scopes) where
  after scopes := by
    show scopesAfter ([] :: scopes) ((parts ++ more) ++ [.closes]) = scopes
    rw [scopesAfter_append, scopesAfter_append, h.after, h'.after]
    rfl
  sites scopes := by
    show partSites ([] :: scopes) ((parts ++ more) ++ [.closes]) = _
    rw [partSites_append, partSites_append, h.sites, h.after, h'.sites]
    exact List.append_nil _

end Returns

/-- The declared names are the identifiers of the declarations. -/
theorem varNames_fst (ds : List VarDecl) : (varNames ds).map (·.1) = ds.map (·.id) := by
  rw [varNames, List.map_map]
  rfl

/-- A block sees its own variables and returns to the scopes around it. -/
theorem blockParts_return (decls : List VarDecl) {stmts : List Stmt}
    (h : Returns (Stmt.partsAll stmts) (Stmt.sitesAll · stmts)) :
    Returns (nested (decls.map .var ++ Stmt.partsAll stmts))
      (blockSites · decls (Stmt.sitesAll · stmts)) := by
  have hBlock := Returns.block (Lists.vars decls) h
  rwa [varNames_fst] at hBlock

mutual

/-- The parts of a statement have the sites of the statement, and return to the scopes around it. -/
theorem Stmt.parts_return : (s : Stmt) → Returns s.parts s.sites
  | .assign target value => .uses (.location target :: value.spots)
  | .increment target | .decrement target | .read target => .uses [.location target]
  | .ifThen cond ⟨decls, stmts⟩ | .loop cond ⟨decls, stmts⟩ =>
    (Returns.uses cond.spots).append (blockParts_return decls (Stmt.partsAll_return stmts))
  | .ifElse cond ⟨decls, stmts⟩ ⟨elseDecls, elseStmts⟩ =>
    (Returns.uses cond.spots).append
      ((blockParts_return decls (Stmt.partsAll_return stmts)).append
        (blockParts_return elseDecls (Stmt.partsAll_return elseStmts)))
  | .write value => .uses value.spots
  | .call callee args => .uses (.callee callee :: Expr.spotsAll args)
  | .ret none => .nil
  | .ret (some value) => .uses value.spots

theorem Stmt.partsAll_return :
    (ss : List Stmt) → Returns (Stmt.partsAll ss) (Stmt.sitesAll · ss)
  | [] => .nil
  | s :: ss => (Stmt.parts_return s).append (Stmt.partsAll_return ss)

end

/-! ## Programs -/

/-- A declaration adds its own name to the global scope and nothing else. -/
theorem Decl.parts_after (globals : List Ident) (d : Decl) :
    scopesAfter [globals] d.parts = [globals ++ [d.id]] := by
  cases d with
  | var d | struct s => rfl
  | func f =>
    have hBody := Returns.block (.formals f.formals (.locals [] f.body.decls))
      (Stmt.partsAll_return f.body.stmts)
    rw [Decl.parts, FuncDecl.parts, ← List.append_assoc]
    exact hBody.after [globals ++ [f.id]]

/-- The parts of a declaration have the sites of the declaration. -/
theorem Decl.parts_sites (globals : List Ident) (d : Decl) :
    partSites [globals] d.parts = d.sites globals := by
  cases d with
  | var d => rfl
  | struct s => exact List.append_nil _
  | func f =>
    have hBody := Returns.block (.formals f.formals (.locals [] f.body.decls))
      (Stmt.partsAll_return f.body.stmts)
    rw [Decl.parts, FuncDecl.parts, ← List.append_assoc]
    exact congrArg (_ :: ·) (hBody.sites [globals ++ [f.id]])

/-- Each declaration is seen with the names of those in front of it. -/
theorem declParts_sites (globals : List Ident) (ds : List Decl) :
    partSites [globals] (ds.flatMap Decl.parts) = declSites globals ds := by
  induction ds generalizing globals with
  | nil => rfl
  | cons d ds ih =>
    rw [List.flatMap_cons, partSites_append, d.parts_sites, d.parts_after, ih, declSites]

/-- The sites of a program are those of its parts. -/
theorem Program.partSites_eq (p : Program) : partSites [[]] p.parts = p.sites :=
  declParts_sites [] p.decls

end NameResolution
