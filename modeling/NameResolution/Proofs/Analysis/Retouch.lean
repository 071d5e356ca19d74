import NameResolution.Proofs.Analysis.Settled
import NameResolution.Proofs.Tree.Relabel
import NameResolution.Tree.Printer

/-!
# Retouching — declared names and used names relabelled apart

The identifiers of a tree are of two sorts: those of its declarations with the struct names in
their types, and those that it uses. An analysis treats them differently, and so does the printer,
which shows the symbols of uses only. Retouching a tree relabels each sort in a way of its own.

* `Program.retouch` — the tree with `declared` applied to the one sort and `used` to the other.
* `Program.usedNames_retouch`, `Program.print_retouch` — what the uses and the printed text show
  of it.
-/

namespace NameResolution

/-! ## Retouched trees -/

section

variable (declared used : Ident → Ident)

mutual

/-- The declarations of a statement change by one function, its uses by the other. -/
def Stmt.retouch : Stmt → Stmt
  | .assign target value => .assign (target.relabel used) (value.relabel id used)
  | .increment target => .increment (target.relabel used)
  | .decrement target => .decrement (target.relabel used)
  | .ifThen cond ⟨decls, stmts⟩ =>
    .ifThen (cond.relabel id used) ⟨decls.map (VarDecl.relabel declared), Stmt.retouchAll stmts⟩
  | .ifElse cond ⟨decls, stmts⟩ ⟨elseDecls, elseStmts⟩ =>
    .ifElse (cond.relabel id used) ⟨decls.map (VarDecl.relabel declared), Stmt.retouchAll stmts⟩
      ⟨elseDecls.map (VarDecl.relabel declared), Stmt.retouchAll elseStmts⟩
  | .loop cond ⟨decls, stmts⟩ =>
    .loop (cond.relabel id used) ⟨decls.map (VarDecl.relabel declared), Stmt.retouchAll stmts⟩
  | .read target => .read (target.relabel used)
  | .write value => .write (value.relabel id used)
  | .call callee args => .call (used callee) (Expr.relabelAll id used args)
  | .ret none => .ret none
  | .ret (some value) => .ret (some (value.relabel id used))

def Stmt.retouchAll : List Stmt → List Stmt
  | [] => []
  | s :: ss => s.retouch :: Stmt.retouchAll ss

end

def Block.retouch (b : Block Stmt) : Block Stmt :=
  ⟨b.decls.map (VarDecl.relabel declared), Stmt.retouchAll declared used b.stmts⟩

/-- The name, the formals and the variables are declared, all else in the body is used. -/
def FuncDecl.retouch (f : FuncDecl) : FuncDecl :=
  ⟨f.result.relabel declared, declared f.id, f.formals.map (Formal.relabel declared),
    f.body.retouch declared used⟩

/-- A declaration of the program, its own names declared. -/
def Decl.retouch : Decl → Decl
  | var decl => var (decl.relabel declared)
  | func decl => func (decl.retouch declared used)
  | struct decl => struct (decl.relabel declared)

/-- The program with `declared` applied to the names in its declarations and `used` to the names
that it uses. -/
def Program.retouch (p : Program) : Program :=
  ⟨p.decls.map (Decl.retouch declared used)⟩

/-- A condition with one block, the block taken as a whole. -/
theorem Stmt.retouch_ifThen (cond : Expr) (body : Block Stmt) :
    (Stmt.ifThen cond body).retouch declared used =
      .ifThen (cond.relabel id used) (body.retouch declared used) := rfl

/-- A condition with two blocks, the blocks taken as a whole. -/
theorem Stmt.retouch_ifElse (cond : Expr) (body otherwise : Block Stmt) :
    (Stmt.ifElse cond body otherwise).retouch declared used =
      .ifElse (cond.relabel id used) (body.retouch declared used)
        (otherwise.retouch declared used) := rfl

/-- A loop, its block taken as a whole. -/
theorem Stmt.retouch_loop (cond : Expr) (body : Block Stmt) :
    (Stmt.loop cond body).retouch declared used =
      .loop (cond.relabel id used) (body.retouch declared used) := rfl

end

/-! ## Expressions that stay the same -/

@[simp] theorem Loc.relabel_id (l : Loc) : l.relabel id = l := by
  induction l with
  | var name => rfl
  | field left name ih =>
    rw [Loc.relabel, ih]
    rfl

mutual

@[simp] theorem Expr.relabel_id : (e : Expr) → e.relabel id id = e
  | .trueLit _ | .falseLit _ | .intLit _ _ | .strLit _ _ => rfl
  | .loc location => by rw [Expr.relabel, Loc.relabel_id]
  | .assign target value => by rw [Expr.relabel, Loc.relabel_id, Expr.relabel_id value]
  | .call callee args => by
    rw [Expr.relabel, Expr.relabelAll_id args]
    rfl
  | .unary op operand => by rw [Expr.relabel, Expr.relabel_id operand]
  | .binary op left right => by
    rw [Expr.relabel, Expr.relabel_id left, Expr.relabel_id right]

@[simp] theorem Expr.relabelAll_id : (es : List Expr) → Expr.relabelAll id id es = es
  | [] => rfl
  | e :: es => by rw [Expr.relabelAll, Expr.relabel_id e, Expr.relabelAll_id es]

end

/-! ## Both sorts alike -/

mutual

/-- With one relabelling for both sorts, a tree is relabelled. -/
theorem Stmt.retouch_self (name : Ident → Ident) :
    (s : Stmt) → s.retouch name name = s.relabel id name
  | .assign _ _ | .increment _ | .decrement _ | .read _ | .write _ | .call _ _ | .ret none
  | .ret (some _) => rfl
  | .ifThen cond ⟨decls, stmts⟩ | .loop cond ⟨decls, stmts⟩ => by
    rw [Stmt.retouch, Stmt.relabel, Stmt.retouchAll_self name stmts]
  | .ifElse cond ⟨decls, stmts⟩ ⟨elseDecls, elseStmts⟩ => by
    rw [Stmt.retouch, Stmt.relabel, Stmt.retouchAll_self name stmts,
      Stmt.retouchAll_self name elseStmts]

/-- One function for both kinds of names relabels the statements. -/
theorem Stmt.retouchAll_self (name : Ident → Ident) :
    (ss : List Stmt) → Stmt.retouchAll name name ss = Stmt.relabelAll id name ss
  | [] => rfl
  | s :: ss => by
    rw [Stmt.retouchAll, Stmt.relabelAll, Stmt.retouch_self name s, Stmt.retouchAll_self name ss]

end

/-- Taking the symbols away from both kinds of names takes all of them away. -/
theorem Program.retouch_bare (p : Program) : p.retouch Ident.bare Ident.bare = p.bare := by
  rw [Program.retouch, Program.bare, Program.relabel]
  refine congrArg Program.mk (List.map_congr_left fun d _ => ?_)
  cases d with
  | var | struct => rfl
  | func f =>
    rw [Decl.retouch, Decl.relabel, FuncDecl.retouch, FuncDecl.relabel, Block.retouch,
      Block.relabel, Stmt.retouchAll_self]

/-! ## Used names -/

/-- The names that are used at some sites. -/
def usedAt (sites : List Site) : List Ident :=
  sites.flatMap fun s => s.spot.used

theorem usedAt_append (sites sites' : List Site) :
    usedAt (sites ++ sites') = usedAt sites ++ usedAt sites' :=
  List.flatMap_append

mutual

/-- The names used in an expression are its identifiers. -/
theorem Expr.used_spots : (e : Expr) → e.spots.flatMap Spot.used = e.idents
  | .trueLit _ | .falseLit _ | .intLit _ _ | .strLit _ _ => rfl
  | .loc location => by simp [Expr.spots, Expr.idents, Spot.used]
  | .assign target value => by simp [Expr.spots, Expr.idents, Spot.used, Expr.used_spots value]
  | .call callee args => by simp [Expr.spots, Expr.idents, Spot.used, Expr.used_spotsAll args]
  | .unary op operand => by rw [Expr.spots, Expr.idents, Expr.used_spots operand]
  | .binary op left right => by
    rw [Expr.spots, Expr.idents, List.flatMap_append, Expr.used_spots left, Expr.used_spots right]

theorem Expr.used_spotsAll : (es : List Expr) →
    (Expr.spotsAll es).flatMap Spot.used = Expr.identsAll es
  | [] => rfl
  | e :: es => by
    rw [Expr.spotsAll, Expr.identsAll, List.flatMap_append, Expr.used_spots e,
      Expr.used_spotsAll es]

end

/-- What is used at some spots does not depend on the scopes around them. -/
theorem usedAt_sitesIn (scopes : Scopes) (spots : List Spot) :
    usedAt (sitesIn scopes spots) = spots.flatMap Spot.used := by
  rw [usedAt, sitesIn, List.flatMap_map]

/-- A declaration uses no name. -/
theorem usedAt_declarationSites (outer : Scopes) (inner : List Ident)
    (names : List (Ident × List Ident)) : usedAt (declarationSites outer inner names) = [] := by
  induction names generalizing inner with
  | nil => rfl
  | cons name names ih => exact ih (inner ++ [name.1])

/-- In a block only its statements use names. -/
theorem usedAt_blockSites (scopes : Scopes) (decls : List VarDecl)
    (stmtSites : Scopes → List Site) :
    usedAt (blockSites scopes decls stmtSites) =
      usedAt (stmtSites (decls.map (·.id) :: scopes)) := by
  rw [blockSites, usedAt_append, usedAt_declarationSites, List.nil_append]

mutual

/-- The names used in a retouched statement are the retouched ones, whatever is in scope. -/
theorem Stmt.used_retouch (declared used : Ident → Ident) : (s : Stmt) → (scopes scopes' : Scopes) →
    usedAt ((s.retouch declared used).sites scopes) = (usedAt (s.sites scopes')).map used
  | .assign target value, _, _ => by
    simp [Stmt.retouch, Stmt.sites, usedAt_sitesIn, Spot.used, Expr.used_spots, Loc.idents_relabel,
      Expr.idents_relabel]
  | .increment target, _, _ | .decrement target, _, _ | .read target, _, _ => by
    simp [Stmt.retouch, Stmt.sites, usedAt_sitesIn, Spot.used, Loc.idents_relabel]
  -- the scopes around a statement say nothing about which names it uses, so they may differ
  | .ifThen cond ⟨decls, stmts⟩, scopes, scopes' | .loop cond ⟨decls, stmts⟩, scopes, scopes' => by
    simp only [Stmt.retouch, Stmt.sites, usedAt_append, usedAt_sitesIn, usedAt_blockSites,
      List.map_append, Expr.used_spots, Expr.idents_relabel]
    rw [Stmt.usedAll_retouch declared used stmts _ (decls.map (·.id) :: scopes')]
  | .ifElse cond ⟨decls, stmts⟩ ⟨elseDecls, elseStmts⟩, scopes, scopes' => by
    simp only [Stmt.retouch, Stmt.sites, usedAt_append, usedAt_sitesIn, usedAt_blockSites,
      List.map_append, Expr.used_spots, Expr.idents_relabel]
    rw [Stmt.usedAll_retouch declared used stmts _ (decls.map (·.id) :: scopes'),
      Stmt.usedAll_retouch declared used elseStmts _ (elseDecls.map (·.id) :: scopes')]
  | .write value, _, _ | .ret (some value), _, _ => by
    simp [Stmt.retouch, Stmt.sites, usedAt_sitesIn, Expr.used_spots, Expr.idents_relabel]
  | .call callee args, _, _ => by
    simp [Stmt.retouch, Stmt.sites, usedAt_sitesIn, Spot.used, Expr.used_spotsAll,
      Expr.identsAll_relabel]
  | .ret none, _, _ => rfl

theorem Stmt.usedAll_retouch (declared used : Ident → Ident) :
    (ss : List Stmt) → (scopes scopes' : Scopes) →
      usedAt (Stmt.sitesAll scopes (Stmt.retouchAll declared used ss)) =
        (usedAt (Stmt.sitesAll scopes' ss)).map used
  | [], _, _ => rfl
  | s :: ss, scopes, scopes' => by
    rw [Stmt.retouchAll, Stmt.sitesAll, Stmt.sitesAll, usedAt_append, usedAt_append,
      List.map_append, Stmt.used_retouch declared used s scopes scopes',
      Stmt.usedAll_retouch declared used ss scopes scopes']

end

/-- A declared name is not a use. -/
theorem usedAt_declaration (scopes : Scopes) (id : Ident) (typeNames : List Ident)
    (sites : List Site) :
    usedAt (⟨scopes, .declaration id typeNames⟩ :: sites) = usedAt sites :=
  List.nil_append _

/-- In a function only the statements use names, and in a struct nothing does. -/
theorem usedAt_funcSites (globals : List Ident) (f : FuncDecl) :
    ∃ scopes, usedAt (f.sites globals) = usedAt (Stmt.sitesAll scopes f.body.stmts) := by
  refine ⟨(formalNames f.formals ++ varNames f.body.decls).map (·.1) :: [globals ++ [f.id]], ?_⟩
  rw [FuncDecl.sites, List.cons_append, usedAt_declaration, usedAt_append,
    usedAt_declarationSites, List.nil_append]

/-- A struct uses no name. -/
theorem usedAt_structSites (globals : List Ident) (s : StructDecl) :
    usedAt (s.sites globals) = [] := by
  rw [StructDecl.sites, usedAt_declaration, usedAt, List.flatMap_map]
  exact List.flatMap_eq_nil_iff.mpr fun _ _ => rfl

/-- The names used in a retouched declaration are the retouched ones. -/
theorem Decl.used_retouch (declared used : Ident → Ident) (d : Decl)
    (globals globals' : List Ident) :
    usedAt ((d.retouch declared used).sites globals) = (usedAt (d.sites globals')).map used := by
  cases d with
  | var d => rfl
  | func f =>
    -- what scopes a function has does not matter either, so they are taken as they come
    obtain ⟨scopes, hUsed⟩ := usedAt_funcSites globals (f.retouch declared used)
    obtain ⟨scopes', hUsed'⟩ := usedAt_funcSites globals' f
    rw [Decl.retouch, Decl.sites, Decl.sites, hUsed, hUsed']
    exact Stmt.usedAll_retouch declared used f.body.stmts scopes scopes'
  | struct s =>
    rw [Decl.retouch, Decl.sites, Decl.sites, usedAt_structSites, usedAt_structSites]
    rfl

/-- The names used in retouched declarations are the retouched ones. -/
theorem declSites_used_retouch (declared used : Ident → Ident) (ds : List Decl)
    (globals globals' : List Ident) :
    usedAt (declSites globals (ds.map (Decl.retouch declared used))) =
      (usedAt (declSites globals' ds)).map used := by
  induction ds generalizing globals globals' with
  | nil => rfl
  | cons d ds ih =>
    rw [List.map_cons, declSites, declSites, usedAt_append, usedAt_append, List.map_append,
      d.used_retouch declared used globals globals']
    exact congrArg _ (ih _ _)

/-- A retouched program uses the retouched names. -/
theorem Program.usedNames_retouch (declared used : Ident → Ident) (p : Program) :
    (p.retouch declared used).usedNames = p.usedNames.map used :=
  declSites_used_retouch declared used p.decls [] []

/-! ## Printed text -/

section

variable {declared used : Ident → Ident} {annotate annotate' : Bool}

theorem Loc.print_relabel (hUsed : ∀ id, (used id).print annotate' = id.print annotate) (l : Loc) :
    (l.relabel used).print annotate' = l.print annotate := by
  induction l with
  | var id => exact hUsed id
  | field left id ih => rw [Loc.relabel, Loc.print, Loc.print, ih, hUsed]

mutual

/-- An expression has the same text if its names have. -/
theorem Expr.print_relabel (place : Position → Position)
    (hUsed : ∀ id, (used id).print annotate' = id.print annotate) :
    (e : Expr) → (e.relabel place used).print annotate' = e.print annotate
  | .trueLit _ | .falseLit _ | .intLit _ _ | .strLit _ _ => rfl
  | .loc location => by rw [Expr.relabel, Expr.print, Expr.print, Loc.print_relabel hUsed]
  -- brackets and operators stay, and positions are not printed
  | .assign target value => by
    rw [Expr.relabel, Expr.print, Expr.print, Loc.print_relabel hUsed,
      Expr.print_relabel place hUsed value]
  | .call callee args => by
    rw [Expr.relabel, Expr.print, Expr.print, hUsed, Expr.printAll_relabel place hUsed args]
  | .unary op operand => by
    rw [Expr.relabel, Expr.print, Expr.print, Expr.print_relabel place hUsed operand]
  | .binary op left right => by
    rw [Expr.relabel, Expr.print, Expr.print, Expr.print_relabel place hUsed left,
      Expr.print_relabel place hUsed right]

theorem Expr.printAll_relabel (place : Position → Position)
    (hUsed : ∀ id, (used id).print annotate' = id.print annotate) :
    (es : List Expr) →
      Expr.printAll annotate' (Expr.relabelAll place used es) = Expr.printAll annotate es
  | [] => rfl
  | e :: es => by
    rw [Expr.relabelAll, Expr.printAll, Expr.printAll, Expr.print_relabel place hUsed e,
      Expr.printAll_relabel place hUsed es]

end

theorem TypeRef.name_relabel (hDeclared : ∀ id, (declared id).name = id.name) (type : TypeRef) :
    (type.relabel declared).name = type.name := by
  cases type with
  | struct id => exact hDeclared id
  | boolean | integer | void => rfl

theorem TypeRef.print_relabel (hDeclared : ∀ id, (declared id).name = id.name) (type : TypeRef) :
    (type.relabel declared).print = type.print := by
  rw [TypeRef.print, TypeRef.print, TypeRef.name_relabel hDeclared]

/-- A declaration shows no symbols. -/
theorem VarDecl.lines_relabel (hDeclared : ∀ id, (declared id).name = id.name) (indent : Int)
    (d : VarDecl) : (d.relabel declared).lines indent = d.lines indent := by
  rw [VarDecl.lines, VarDecl.lines, VarDecl.relabel, TypeRef.print_relabel hDeclared, hDeclared]

/-- Variables have the same lines if names stay what they are. -/
theorem varDecls_lines_relabel (hDeclared : ∀ id, (declared id).name = id.name) (indent : Int)
    (ds : List VarDecl) :
    (ds.map (VarDecl.relabel declared)).flatMap (VarDecl.lines indent) =
      ds.flatMap (VarDecl.lines indent) := by
  rw [List.flatMap_map]
  exact List.flatMap_congr fun d _ => d.lines_relabel hDeclared indent

mutual

/-- A statement has the same lines if declared names stay and used names have the same text. -/
theorem Stmt.lines_retouch (hDeclared : ∀ id, (declared id).name = id.name)
    (hUsed : ∀ id, (used id).print annotate' = id.print annotate) :
    (s : Stmt) → (indent : Int) →
      (s.retouch declared used).lines annotate' indent = s.lines annotate indent
  -- declared names are printed without their symbols, so they only have to keep their words
  | .assign target value, indent => by
    rw [Stmt.retouch, Stmt.lines, Stmt.lines, Loc.print_relabel hUsed, Expr.print_relabel id hUsed]
  | .increment target, indent | .decrement target, indent | .read target, indent => by
    rw [Stmt.retouch, Stmt.lines, Stmt.lines, Loc.print_relabel hUsed]
  | .ifThen cond ⟨decls, stmts⟩, indent | .loop cond ⟨decls, stmts⟩, indent => by
    rw [Stmt.retouch, Stmt.lines, Stmt.lines, Expr.print_relabel id hUsed,
      varDecls_lines_relabel hDeclared, Stmt.linesAll_retouch hDeclared hUsed stmts]
  | .ifElse cond ⟨decls, stmts⟩ ⟨elseDecls, elseStmts⟩, indent => by
    rw [Stmt.retouch, Stmt.lines, Stmt.lines, Expr.print_relabel id hUsed,
      varDecls_lines_relabel hDeclared, varDecls_lines_relabel hDeclared,
      Stmt.linesAll_retouch hDeclared hUsed stmts, Stmt.linesAll_retouch hDeclared hUsed elseStmts]
  | .write value, indent | .ret (some value), indent => by
    rw [Stmt.retouch, Stmt.lines, Stmt.lines, Expr.print_relabel id hUsed]
  | .call callee args, indent => by
    rw [Stmt.retouch, Stmt.lines, Stmt.lines]
    exact congrArg (fun text => [indented indent (text ++ ".")])
      (Expr.print_relabel id hUsed (.call callee args))
  | .ret none, indent => rfl

theorem Stmt.linesAll_retouch (hDeclared : ∀ id, (declared id).name = id.name)
    (hUsed : ∀ id, (used id).print annotate' = id.print annotate) :
    (ss : List Stmt) → (indent : Int) →
      Stmt.linesAll annotate' indent (Stmt.retouchAll declared used ss) =
        Stmt.linesAll annotate indent ss
  | [], indent => rfl
  | s :: ss, indent => by
    rw [Stmt.retouchAll, Stmt.linesAll, Stmt.linesAll, Stmt.lines_retouch hDeclared hUsed s,
      Stmt.linesAll_retouch hDeclared hUsed ss]

end

theorem Formal.print_relabel (hDeclared : ∀ id, (declared id).name = id.name) (f : Formal) :
    (f.relabel declared).print = f.print := by
  rw [Formal.print, Formal.print, Formal.relabel, TypeRef.print_relabel hDeclared, hDeclared]

/-- A declaration has the same lines if declared names stay and used names have the same text. -/
theorem Decl.lines_retouch (hDeclared : ∀ id, (declared id).name = id.name)
    (hUsed : ∀ id, (used id).print annotate' = id.print annotate) (indent : Int) (d : Decl) :
    (d.retouch declared used).lines annotate' indent = d.lines annotate indent := by
  cases d with
  | var d => exact d.lines_relabel hDeclared indent
  | func f =>
    -- the formals are printed one by one
    have hFormals : (f.formals.map (Formal.relabel declared)).map Formal.print =
        f.formals.map Formal.print := by
      rw [List.map_map]
      exact List.map_congr_left fun formal _ => formal.print_relabel hDeclared
    simp only [Decl.retouch, Decl.lines, FuncDecl.retouch, FuncDecl.lines, Block.retouch,
      Block.lines, TypeRef.print_relabel hDeclared, hDeclared, hFormals,
      varDecls_lines_relabel hDeclared, Stmt.linesAll_retouch hDeclared hUsed]
  | struct s =>
    simp only [Decl.retouch, Decl.lines, StructDecl.relabel, StructDecl.lines, hDeclared,
      varDecls_lines_relabel hDeclared]

/-- The text depends on the names that are declared, and on what is shown of those that are used. So
it can be the text with annotations of one tree, and that without them of another. -/
theorem Program.print_retouch (hDeclared : ∀ id, (declared id).name = id.name)
    (hUsed : ∀ id, (used id).print annotate' = id.print annotate) (p : Program) :
    (p.retouch declared used).print annotate' = p.print annotate := by
  rw [Program.print, Program.print, Program.lines, Program.lines, Program.retouch,
    List.flatMap_map]
  rw [List.flatMap_congr fun d _ => d.lines_retouch hDeclared hUsed 0]

/-- A program without symbols shows none, whether they are wanted or not. -/
theorem Program.print_bare (annotate : Bool) (p : Program) :
    p.bare.print annotate = p.print false := by
  have hNames : ∀ id : Ident, id.bare.name = id.name := fun _ => rfl
  have hPlain : ∀ id : Ident, id.bare.print annotate = id.print false := by
    rintro ⟨pos, name, symbol?⟩
    cases symbol? <;> rfl
  rw [← p.retouch_bare]
  exact p.print_retouch hNames hPlain

end

end NameResolution
