import Mathlib.Data.List.Flatten
import NameResolution.Proofs.Analysis.Walk
import NameResolution.Proofs.Grammar.Positions

/-!
# Order — errors stand in the order of the text

The sites of a program list its identifiers from left to right, and every error stands at an
identifier of its own site. So the errors of an analysis come in the order of the text; and where
the program was read from a text, that is the order of their positions.

* `Program.sites_idents` — the identifiers of the sites, in the order of the text.
* `errors_in_text_order` — the errors of an accepted text, each at a name of its own.
-/

namespace NameResolution

/-! ## Identifiers of sites -/

/-- The identifiers that errors about the sites can point at. -/
def identsAt (sites : List Site) : List Ident :=
  sites.flatMap fun s => s.spot.idents

theorem identsAt_append (sites sites' : List Site) :
    identsAt (sites ++ sites') = identsAt sites ++ identsAt sites' :=
  List.flatMap_append

theorem identsAt_cons (s : Site) (sites : List Site) :
    identsAt (s :: sites) = s.spot.idents ++ identsAt sites := rfl

mutual

/-- The identifiers at the spots of an expression are its own, in order. -/
theorem Expr.spots_idents : (e : Expr) → e.spots.flatMap Spot.idents = e.idents
  | .trueLit _ | .falseLit _ | .intLit _ _ | .strLit _ _ => rfl
  | .loc location => by simp [Expr.spots, Expr.idents, Spot.idents]
  | .assign target value => by
    simp [Expr.spots, Expr.idents, Spot.idents, Expr.spots_idents value]
  | .call callee args => by
    simp [Expr.spots, Expr.idents, Spot.idents, Expr.spotsAll_idents args]
  | .unary op operand => by rw [Expr.spots, Expr.idents, Expr.spots_idents operand]
  | .binary op left right => by
    simp [Expr.spots, Expr.idents, Expr.spots_idents left, Expr.spots_idents right]

theorem Expr.spotsAll_idents :
    (es : List Expr) → (Expr.spotsAll es).flatMap Spot.idents = Expr.identsAll es
  | [] => rfl
  | e :: es => by
    rw [Expr.spotsAll, Expr.identsAll, List.flatMap_append, Expr.spots_idents e,
      Expr.spotsAll_idents es]

end

/-- The identifiers at spots do not depend on the scopes. -/
theorem sitesIn_idents (scopes : Scopes) (spots : List Spot) :
    identsAt (sitesIn scopes spots) = spots.flatMap Spot.idents := by
  rw [identsAt, sitesIn, List.flatMap_map]

/-- A declaration site has the names in the type, then the name. -/
theorem declarationSites_idents (outer : Scopes) (inner : List Ident)
    (names : List (Ident × List Ident)) :
    identsAt (declarationSites outer inner names) =
      names.flatMap fun name => name.2 ++ [name.1] := by
  induction names generalizing inner with
  | nil => rfl
  | cons name names ih =>
    rw [declarationSites, List.flatMap_cons, ← ih (inner ++ [name.1])]
    rfl

/-- Variables declare their identifiers, the type first. -/
theorem varNames_idents (ds : List VarDecl) :
    ((varNames ds).flatMap fun name => name.2 ++ [name.1]) = ds.flatMap VarDecl.idents := by
  rw [varNames, List.flatMap_map]
  rfl

mutual

/-- The identifiers at the sites of a statement are its own, in order. -/
theorem Stmt.sites_idents : (s : Stmt) → (scopes : Scopes) →
    identsAt (s.sites scopes) = s.idents
  | .assign target value, scopes => by
    simp [Stmt.sites, Stmt.idents, sitesIn_idents, Spot.idents, value.spots_idents]
  -- a single use; the scopes around it do not matter for its identifiers
  | .increment target, scopes | .decrement target, scopes | .read target, scopes => by
    simp [Stmt.sites, Stmt.idents, sitesIn_idents, Spot.idents]
  -- the variables of a block are sites as well, in front of those of its statements
  | .ifThen cond ⟨decls, stmts⟩, scopes | .loop cond ⟨decls, stmts⟩, scopes => by
    simp [Stmt.sites, Stmt.idents, blockSites, identsAt_append, sitesIn_idents,
      declarationSites_idents, varNames_idents, cond.spots_idents, Stmt.sitesAll_idents stmts]
  | .ifElse cond ⟨decls, stmts⟩ ⟨elseDecls, elseStmts⟩, scopes => by
    simp [Stmt.sites, Stmt.idents, blockSites, identsAt_append, sitesIn_idents,
      declarationSites_idents, varNames_idents, cond.spots_idents, Stmt.sitesAll_idents stmts,
      Stmt.sitesAll_idents elseStmts]
  | .write value, scopes => by rw [Stmt.sites, Stmt.idents, sitesIn_idents, value.spots_idents]
  | .call callee args, scopes => by
    simp [Stmt.sites, Stmt.idents, sitesIn_idents, Spot.idents, Expr.spotsAll_idents]
  | .ret none, scopes => rfl
  | .ret (some value), scopes => by
    rw [Stmt.sites, Stmt.idents, sitesIn_idents, value.spots_idents]

theorem Stmt.sitesAll_idents : (ss : List Stmt) → (scopes : Scopes) →
    identsAt (Stmt.sitesAll scopes ss) = Stmt.identsAll ss
  | [], scopes => rfl
  | s :: ss, scopes => by
    rw [Stmt.sitesAll, Stmt.identsAll, identsAt_append, Stmt.sites_idents s,
      Stmt.sitesAll_idents ss]

end

/-- The identifiers at the sites of a function are some of its own, in order. -/
theorem FuncDecl.sites_idents (globals : List Ident) (f : FuncDecl) :
    (identsAt (f.sites globals)).Sublist f.idents := by
  -- the types of the formals and of the result are not looked at
  have hFormals : ((formalNames f.formals).flatMap fun name => name.2 ++ [name.1]).Sublist
      (f.formals.flatMap Formal.idents) := by
    rw [formalNames, List.flatMap_map]
    exact List.Sublist.flatMap_right _ fun _ _ => List.sublist_append_right _ _
  have hSites : identsAt (f.sites globals) =
      [f.id] ++ (formalNames f.formals).flatMap (fun name => name.2 ++ [name.1]) ++
        f.body.idents := by
    rw [FuncDecl.sites, List.cons_append, identsAt_cons, identsAt_append, declarationSites_idents,
      List.flatMap_append, varNames_idents, Stmt.sitesAll_idents, Block.idents]
    simp [Spot.idents]
  rw [hSites, FuncDecl.idents]
  exact ((List.sublist_append_right f.result.idents [f.id]).append hFormals).append_right _

/-- The identifiers at the sites of a struct are its own, in order. -/
theorem StructDecl.sites_idents (globals : List Ident) (s : StructDecl) :
    identsAt (s.sites globals) = s.idents := by
  rw [StructDecl.sites, StructDecl.idents, ← varNames_idents, identsAt_cons, identsAt,
    List.flatMap_map]
  rfl

/-- The identifiers at the sites of a declaration are some of its own, in order. -/
theorem Decl.sites_idents (globals : List Ident) (d : Decl) :
    (identsAt (d.sites globals)).Sublist d.idents := by
  cases d with
  | var d =>
    show (d.type.idents ++ [d.id] ++ []).Sublist _
    rw [List.append_nil]
    exact List.Sublist.refl _
  | func f => exact f.sites_idents globals
  | struct s =>
    show (identsAt (s.sites globals)).Sublist s.idents
    rw [s.sites_idents]

/-- The identifiers at the sites of a program are some of its own, in order. -/
theorem declSites_idents (globals : List Ident) (ds : List Decl) :
    (identsAt (declSites globals ds)).Sublist (ds.flatMap Decl.idents) := by
  induction ds generalizing globals with
  | nil => exact List.Sublist.refl _
  | cons d ds ih =>
    rw [declSites, identsAt_append, List.flatMap_cons]
    exact (d.sites_idents globals).append (ih _)

/-- The sites of a program list identifiers of the program, in the order of the text. -/
theorem Program.sites_idents (p : Program) : (identsAt p.sites).Sublist p.idents :=
  declSites_idents [] p.decls

/-! ## Errors at identifiers -/

/-- The error stands at the identifier. -/
def Diagnostic.At (d : Diagnostic) (id : Ident) : Prop :=
  d = .located d.kind id.pos

/-- Errors that each stand at an identifier of their own site stand at identifiers in the order of
the sites. -/
theorem exists_reported {sites : List Site} {errors : List Diagnostic}
    (h : List.Forall₂ Site.Reports sites errors) :
    ∃ reported, reported.Sublist (identsAt sites) ∧
      List.Forall₂ Diagnostic.At errors reported := by
  induction h with
  | nil => exact ⟨[], List.Sublist.refl _, .nil⟩
  | @cons s d sites errors hHead _ ih =>
    obtain ⟨id, hMem, hAt⟩ := hHead
    obtain ⟨reported, hReported, hErrors⟩ := ih
    exact ⟨id :: reported, (List.singleton_sublist.mpr hMem).append hReported, .cons hAt hErrors⟩

/-- Each error stands at one of the identifiers, and they come in the same order. -/
theorem Settled.exists_reported {sites : List Site} {errors : List Diagnostic}
    (h : Settled sites errors) :
    ∃ reported, reported.Sublist (identsAt sites) ∧
      List.Forall₂ Diagnostic.At errors reported := by
  obtain ⟨reported, hReported, hErrors⟩ := NameResolution.exists_reported h.reported
  -- the sites that failed are some of all sites
  exact ⟨reported, hReported.trans (List.filter_sublist.flatMap _), hErrors⟩

/-! ## Positions of errors -/

/-- **Errors in the order of the text.** An analysis of what was read from a text does not fail.
Each of its errors stands at an identifier of the program, and these identifiers are in the order of
the text, with increasing positions: so none of them is reported twice. -/
theorem errors_in_text_order (a : Analyzer) {source : String} {p : Program}
    (h : Grammar.parse source = .ok p) :
    ∃ q b, a.analyze p = .ok (q, b) ∧
      ∃ reported, reported.Sublist p.idents ∧ List.Forall₂ Diagnostic.At b.errors reported ∧
        reported.Pairwise fun id id' => id.pos.Before id'.pos := by
  -- the parser puts no symbols on identifiers
  obtain ⟨ts, rest, -, -, hDerives⟩ := Grammar.parse_reads h
  have hFresh : p.Fresh := fun id hId => (hDerives.names id hId).2
  obtain ⟨q, b, hAnalyze, hBare, hSettled⟩ := analyze_settles a hFresh
  obtain ⟨reported, hReported, hErrors⟩ := hSettled.exists_reported
  -- the annotated program has the identifiers of the program, with symbols on them
  have hIdents : q.idents.map Ident.bare = p.idents := by
    rw [← q.idents_relabel id, ← Program.bare, hBare, Program.bare, p.idents_relabel id]
    refine (List.map_congr_left fun id' hId => ?_).trans (List.map_id _)
    rw [Ident.bare, ← hFresh id' hId]
    rfl
  have hSublist : (reported.map Ident.bare).Sublist p.idents := by
    rw [← hIdents]
    exact (hReported.trans q.sites_idents).map Ident.bare
  refine ⟨q, b, hAnalyze, reported.map Ident.bare, hSublist, ?_, ?_⟩
  · rw [List.forall₂_map_right_iff]
    exact hErrors
  · -- the parser has put the identifiers on increasing positions
    have hPositions := (Grammar.positions_point_at_text h).2.sublist p.idents_positions
    rw [List.pairwise_map] at hPositions
    exact hPositions.sublist hSublist

/-- A text that goes wrong in all six ways. The type of a field, the last name of a left side and a
field are reported away from the name that is declared or used there. -/
def manyErrors : String :=
  "struct P [struct Q x. integer y.]\nvoid f[void a, void a][struct P p. void v.\np:y:z = p:w + u.]"

/-- Six errors on three lines, from left to right. -/
theorem manyErrors_in_text_order :
    ∃ p, Grammar.parse manyErrors = .ok p ∧
      ((Analyzer.new.analyze p).toOption.map fun answer => answer.2.errors) =
        some [.located .invalidStructType ⟨1, 18⟩, .located .multiplyDeclared ⟨2, 21⟩,
          .located .declaredVoid ⟨2, 41⟩, .located .nonStructAccess ⟨3, 3⟩,
          .located .invalidField ⟨3, 11⟩, .located .undeclared ⟨3, 15⟩] ∧
      ∃ q b, Analyzer.new.analyze p = .ok (q, b) ∧
        ∃ reported, reported.Sublist p.idents ∧ List.Forall₂ Diagnostic.At b.errors reported ∧
          reported.Pairwise fun id id' => id.pos.Before id'.pos := by
  have hSeen : (Grammar.parse manyErrors).toOption.map (fun p =>
        (Analyzer.new.analyze p).toOption.map fun answer => answer.2.errors) =
      some (some [.located .invalidStructType ⟨1, 18⟩, .located .multiplyDeclared ⟨2, 21⟩,
        .located .declaredVoid ⟨2, 41⟩, .located .nonStructAccess ⟨3, 3⟩,
        .located .invalidField ⟨3, 11⟩, .located .undeclared ⟨3, 15⟩]) := by
    decide +kernel
  obtain ⟨p, hRead, hErrors⟩ := Grammar.exists_of_seen hSeen
  exact ⟨p, hRead, hErrors, errors_in_text_order Analyzer.new hRead⟩

end NameResolution
