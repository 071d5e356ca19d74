import NameResolution.Analysis.Analyzer
import NameResolution.Proofs.Analysis.Declared
import NameResolution.Proofs.Analysis.Uses

/-!
# The walk — statements, functions, structs and programs

One lemma for each construct: its walk does not fail, changes no scope that was there except by the
declared name of the construct itself, and settles the sites of the annotated construct. The
induction is over the tree, with the mirrored scopes as the invariant.

* `Stmt.resolve_walks` — a statement leaves all scopes as they were.
* `Decl.resolve_walks` — a declaration adds its name to the global scope.
* `Program.resolve_walks` — a program, from an empty global scope on.
-/

namespace NameResolution

open Analysis SymbolTable

variable {base : ScopeId} {t : SymbolTable} {scopes : Scopes}

/-! ## Statements -/

/-- A part of the walk that leaves every scope as it was: it answers an annotated `x` whose sites it
has settled. `bare` takes the symbols off. -/
def Walks {α β : Type} (base : ScopeId) (t : SymbolTable) (part : Resolve α)
    (sites : α → List Site) (bare : α → β) (x : α) : Prop :=
  ∃ x' t' errors, Yields part t x' t' errors ∧ Frame t t' ∧ t'.Proper base ∧
    Settled (sites x') errors ∧ bare x' = bare x

/-- The sites of a block with a scope of its own. -/
def Block.sites (scopes : Scopes) (b : Block Stmt) : List Site :=
  blockSites scopes b.decls (Stmt.sitesAll · b.stmts)

/-- What is walked in a new scope may declare names in it, and leaves all others alone. -/
theorem Frame.of_push {names : List (Ident × List Ident)} {t' t'' : SymbolTable}
    {errors : List Diagnostic}
    (hDeclared : DeclaredAll base t.store.length t.push.2 names t' errors)
    (hFrame : Frame t' t'') : Frame t { t'' with stack := t.stack } where
  stack := rfl
  length := by
    -- the scope of the block is one of those the table has made
    have hInner := hFrame.length
    rw [hDeclared.length, push_length] at hInner
    exact Nat.le_of_succ_le hInner
  scope j hj := by
    have hInner : j < t'.store.length := by
      rw [hDeclared.length, push_length]
      exact Nat.lt_succ_of_lt hj
    -- the scopes around are older than that of the block, so its declarations do not touch them
    show t''.scope j = t.scope j
    rw [hFrame.scope j hInner, hDeclared.other (Nat.ne_of_lt hj), push_scope]

/-- A scope that has just been opened is ready for declarations. -/
theorem ready_push (hProper : t.Proper base) :
    Ready base t.store.length (t.store.length :: t.stack) t.push.2 where
  proper := hProper.push
  base_le := hProper.length
  made := by
    rw [push_length]
    exact Nat.lt_succ_self _
  stack := rfl

/-- A block is walked through if its statements are, with its variables in the innermost scope. -/
theorem inBlock_walks (hProper : t.Proper base) (hMirrors : t.Mirrors scopes)
    (decls : List VarDecl) (stmts : List Stmt) (hFresh : ∀ d ∈ decls, d.id.symbol? = none)
    (hStmts : ∀ t scopes, t.Proper base → t.Mirrors scopes →
      Walks base t (Stmt.resolveAll stmts) (Stmt.sitesAll scopes)
        (Stmt.relabelAll id Ident.bare) stmts) :
    Walks base t (inBlock decls (Stmt.resolveAll stmts)) (Block.sites scopes)
      (Block.relabel id Ident.bare) ⟨decls, stmts⟩ := by
  have hReady := ready_push hProper
  -- the declarations go into the new scope
  obtain ⟨decls', t₁, errors₁, hYields₁, hDeclared, hBare₁⟩ :=
    varDecls_declare hReady decls hFresh
  have hMirrors₁ := hDeclared.mirrors rfl hProper.push hProper.length hMirrors.push
  -- the statements see them, and leave them as they are
  obtain ⟨stmts', t₂, errors₂, hYields₂, hFrame, hProper₂, hSettled, hBare₂⟩ :=
    hStmts t₁ _ (hDeclared.ready hReady).proper hMirrors₁
  have hWhole := Frame.of_push hDeclared hFrame
  refine ⟨⟨decls', stmts'⟩, _, errors₁ ++ errors₂, ?_, hWhole,
    hProper₂.leave hProper hWhole.length, ?_, ?_⟩
  · refine inScope_yields ?_ ((hFrame.stack.trans hDeclared.stack))
    exact hYields₁.bind (hYields₂.bind_pure (Block.mk decls'))
  · rw [varNames, List.map_map] at hSettled
    exact (hDeclared.settled scopes []).append hSettled
  · rw [Block.relabel, Block.relabel, hBare₁, hBare₂]

/-- The name of a variable is one of the identifiers. -/
theorem mem_idents_of_mem_decls {decls : List VarDecl} {d : VarDecl} (h : d ∈ decls) :
    d.id ∈ decls.flatMap VarDecl.idents :=
  List.mem_flatMap.mpr ⟨d, h, by simp [VarDecl.idents]⟩

/-- A statement that only uses names. -/
theorem walks_of_use {α : Type} {part : Resolve α} {x x' : α} {sites : α → List Site}
    {bare : α → α} {errors : List Diagnostic} (hProper : t.Proper base)
    (hYields : Yields part t x' t errors) (hSettled : Settled (sites x') errors)
    (hBare : bare x' = bare x) : Walks base t part sites bare x :=
  ⟨x', t, errors, hYields, .refl t, hProper, hSettled, hBare⟩

/-- A condition and the block that it guards; `make` puts them together. -/
theorem guarded_walks {part : Resolve (Block Stmt)} {b : Block Stmt}
    {make : Expr → Block Stmt → Stmt} (hProper : t.Proper base) (hMirrors : t.Mirrors scopes)
    (cond : Expr) (hBlock : Walks base t part (Block.sites scopes) (Block.relabel id Ident.bare) b)
    (hSites : ∀ c b, (make c b).sites scopes = sitesIn scopes c.spots ++ b.sites scopes)
    (hBare : ∀ c b, (make c b).relabel id Ident.bare =
      make (c.relabel id Ident.bare) (b.relabel id Ident.bare)) :
    Walks base t (useExpr cond >>= fun c => part >>= fun b => pure (make c b))
      (Stmt.sites scopes) (Stmt.relabel id Ident.bare) (make cond b) := by
  obtain ⟨body, t', errors, hYields, hFrame, hProper', hSettled, hBody⟩ := hBlock
  refine ⟨make (cond.annotate t) body, t', cond.diagnose t ++ errors,
    (useExpr_yields cond t).bind (hYields.bind_pure (make _)), hFrame, hProper', ?_, ?_⟩
  -- the condition is settled in the scopes around the block
  · rw [hSites]
    exact (Expr.settled hMirrors hProper cond).append hSettled
  · rw [hBare, hBare, Expr.bare_annotate, hBody]

mutual

/-- A statement is walked through: its sites are settled, and the scopes are as before. -/
theorem Stmt.resolve_walks : ∀ (s : Stmt) (t : SymbolTable) (scopes : Scopes), t.Proper base →
    t.Mirrors scopes → (∀ id ∈ s.idents, id.symbol? = none) →
    Walks base t s.resolve (Stmt.sites scopes) (Stmt.relabel id Ident.bare) s
  | .assign target value, t, _, hProper, hMirrors, _ => by
    refine walks_of_use hProper (Stmt.assign_yields target value t) ?_ ?_
    · exact (Loc.settled hMirrors hProper target).append (Expr.settled hMirrors hProper value)
    · rw [Stmt.relabel, Stmt.relabel, Loc.bare_annotate, Expr.bare_annotate]
  | .increment target, t, _, hProper, hMirrors, _ => by
    refine walks_of_use hProper (Stmt.increment_yields target t) ?_ ?_
    · exact Loc.settled hMirrors hProper target
    · rw [Stmt.relabel, Stmt.relabel, Loc.bare_annotate]
  | .decrement target, t, _, hProper, hMirrors, _ => by
    refine walks_of_use hProper (Stmt.decrement_yields target t) ?_ ?_
    · exact Loc.settled hMirrors hProper target
    · rw [Stmt.relabel, Stmt.relabel, Loc.bare_annotate]
  | .read target, t, _, hProper, hMirrors, _ => by
    refine walks_of_use hProper (Stmt.read_yields target t) ?_ ?_
    · exact Loc.settled hMirrors hProper target
    · rw [Stmt.relabel, Stmt.relabel, Loc.bare_annotate]
  | .write value, t, _, hProper, hMirrors, _ => by
    refine walks_of_use hProper (Stmt.write_yields value t) ?_ ?_
    · exact Expr.settled hMirrors hProper value
    · rw [Stmt.relabel, Stmt.relabel, Expr.bare_annotate]
  | .call callee args, t, _, hProper, hMirrors, _ => by
    refine walks_of_use hProper (Stmt.call_yields callee args t) ?_ ?_
    · exact (Ident.settled hMirrors hProper callee).append (Expr.settledAll hMirrors hProper args)
    · rw [Stmt.relabel, Stmt.relabel, Expr.bare_annotateAll]
      rfl
  | .ret none, t, _, hProper, _, _ => walks_of_use hProper (Stmt.retNone_yields t) .nil rfl
  | .ret (some value), t, _, hProper, hMirrors, _ => by
    refine walks_of_use hProper (Stmt.retSome_yields value t) ?_ ?_
    · exact Expr.settled hMirrors hProper value
    · rw [Stmt.relabel, Stmt.relabel, Expr.bare_annotate]
  | .ifThen cond ⟨decls, stmts⟩, t, scopes, hProper, hMirrors, hFresh => by
    rw [Stmt.idents] at hFresh
    have hBlock := inBlock_walks hProper hMirrors decls stmts
      (fun d hd => hFresh d.id (by simp [mem_idents_of_mem_decls hd]))
      fun t scopes hProper hMirrors =>
        Stmt.resolveAll_walks stmts t scopes hProper hMirrors fun id h => hFresh id (by simp [h])
    rw [Stmt.resolve]
    exact guarded_walks hProper hMirrors cond hBlock (fun _ _ => rfl)
      (Stmt.relabel_ifThen _ _)
  | .ifElse cond ⟨decls, stmts⟩ ⟨elseDecls, elseStmts⟩, t, scopes, hProper, hMirrors, hFresh => by
    rw [Stmt.idents] at hFresh
    -- the first block is left before the second one is entered
    obtain ⟨body, t₁, errors₁, hYields₁, hFrame₁, hProper₁, hSettled₁, hBare₁⟩ :=
      inBlock_walks hProper hMirrors decls stmts
        (fun d hd => hFresh d.id (by simp [mem_idents_of_mem_decls hd]))
        fun t scopes hProper hMirrors =>
          Stmt.resolveAll_walks stmts t scopes hProper hMirrors fun id h => hFresh id (by simp [h])
    obtain ⟨otherwise, t₂, errors₂, hYields₂, hFrame₂, hProper₂, hSettled₂, hBare₂⟩ :=
      inBlock_walks hProper₁ (hFrame₁.mirrors hProper hMirrors) elseDecls elseStmts
        (fun d hd => hFresh d.id (by simp [mem_idents_of_mem_decls hd]))
        fun t scopes hProper hMirrors =>
          Stmt.resolveAll_walks elseStmts t scopes hProper hMirrors fun id h =>
            hFresh id (by simp [h])
    refine ⟨.ifElse (cond.annotate t) body otherwise, t₂,
      cond.diagnose t ++ (errors₁ ++ errors₂), ?_, hFrame₁.trans hFrame₂, hProper₂,
      (Expr.settled hMirrors hProper cond).append (hSettled₁.append hSettled₂), ?_⟩
    · exact Stmt.ifElse_yields hYields₁ hYields₂
    · rw [Stmt.relabel_ifElse, Stmt.relabel_ifElse, Expr.bare_annotate, hBare₁, hBare₂]
  | .loop cond ⟨decls, stmts⟩, t, scopes, hProper, hMirrors, hFresh => by
    rw [Stmt.idents] at hFresh
    have hBlock := inBlock_walks hProper hMirrors decls stmts
      (fun d hd => hFresh d.id (by simp [mem_idents_of_mem_decls hd]))
      fun t scopes hProper hMirrors =>
        Stmt.resolveAll_walks stmts t scopes hProper hMirrors fun id h => hFresh id (by simp [h])
    rw [Stmt.resolve]
    exact guarded_walks hProper hMirrors cond hBlock (fun _ _ => rfl)
      (Stmt.relabel_loop _ _)

theorem Stmt.resolveAll_walks : ∀ (ss : List Stmt) (t : SymbolTable) (scopes : Scopes),
    t.Proper base → t.Mirrors scopes → (∀ id ∈ Stmt.identsAll ss, id.symbol? = none) →
    Walks base t (Stmt.resolveAll ss) (Stmt.sitesAll scopes) (Stmt.relabelAll id Ident.bare) ss
  | [], t, _, hProper, _, _ => ⟨[], t, [], Yields.pure [] t, .refl t, hProper, .nil, rfl⟩
  | s :: ss, t, scopes, hProper, hMirrors, hFresh => by
    rw [Stmt.identsAll] at hFresh
    obtain ⟨s', t₁, errors₁, hYields₁, hFrame₁, hProper₁, hSettled₁, hBare₁⟩ :=
      Stmt.resolve_walks s t scopes hProper hMirrors fun id h =>
        hFresh id (List.mem_append_left _ h)
    -- the first statement leaves a frame of the table, in which the scopes of the text are still
    -- mirrored
    obtain ⟨ss', t₂, errors₂, hYields₂, hFrame₂, hProper₂, hSettled₂, hBare₂⟩ :=
      Stmt.resolveAll_walks ss t₁ scopes hProper₁ (hFrame₁.mirrors hProper hMirrors) fun id h =>
        hFresh id (List.mem_append_right _ h)
    refine ⟨s' :: ss', t₂, errors₁ ++ errors₂, ?_, hFrame₁.trans hFrame₂, hProper₂,
      hSettled₁.append hSettled₂, ?_⟩
    · rw [Stmt.resolveAll]
      exact hYields₁.bind (hYields₂.bind_pure fun rest => s' :: rest)
    · rw [Stmt.relabelAll, Stmt.relabelAll, hBare₁, hBare₂]

end

/-! ## Functions and structs -/

/-- What a declaration of the global scope leads to: the table after it mirrors the global names
together with the new one. -/
def AddsGlobal {α β : Type} (base : ScopeId) (t : SymbolTable) (part : Resolve α)
    (globals : List Ident) (name : α → Ident) (sites : α → List Site) (bare : α → β) (x : α) :
    Prop :=
  ∃ x' t' errors, Yields part t x' t' errors ∧ t'.stack = t.stack ∧ t'.Proper base ∧
    t'.Mirrors [globals ++ [name x']] ∧ Settled (sites x') errors ∧ bare x' = bare x

variable {k : ScopeId} {globals : List Ident}

/-- A variable of the program adds its name to the global ones. -/
theorem varDecl_adds (hReady : Ready base k [k] t) (hMirrors : t.Mirrors [globals])
    (d : VarDecl) (hFresh : d.id.symbol? = none) :
    AddsGlobal base t d.resolve globals VarDecl.id
      (fun d => [⟨[globals], .declaration d.id d.type.idents⟩]) (VarDecl.relabel Ident.bare) d := by
  obtain ⟨d', t', errors, hYields, hDeclared, hBare⟩ := d.resolve_declares hReady hFresh
  exact ⟨d', t', errors, hYields, hDeclared.stack, (hDeclared.ready hReady).proper,
    hDeclared.mirrors hReady.stack hReady.proper hMirrors, hDeclared.settled [globals], hBare⟩

/-- The name of a function or a struct is bound before its parts are walked. -/
theorem declareHere_adds (hReady : Ready base k [k] t) (hMirrors : t.Mirrors [globals])
    (id : Ident) (hFresh : id.symbol? = none) {meaning : Meaning}
    (hDefined : meaning.category ≠ .undefined)
    (hInside : ∀ inside, meaning.fields? = some inside → base ≤ inside) :
    ∃ id' t' errors, Yields (declareHere id meaning) t id' t' errors ∧ Ready base k [k] t' ∧
      t'.store.length = t.store.length ∧ (∀ j, j ≠ k → t'.scope j = t.scope j) ∧
      t'.Mirrors [globals ++ [id']] ∧
      Settled [⟨[globals], .declaration id' []⟩] errors ∧ id'.bare = id.bare := by
  obtain ⟨id', t', errors, hYields, hDeclares⟩ := declareHere_yields hReady.stack id meaning
  obtain ⟨hIn, hBare⟩ := hDeclares.declaredIn hReady.made hFresh hDefined hInside
  exact ⟨id', t', errors, hYields, hIn.ready hReady, hIn.length, hIn.other,
    hIn.mirrors hReady.stack hReady.proper hMirrors, hIn.settled [globals], hBare⟩

/-- A function adds its name to the global ones, and settles all sites in its body. -/
theorem funcDecl_adds (hReady : Ready base k [k] t) (hMirrors : t.Mirrors [globals])
    (f : FuncDecl) (hFresh : ∀ id ∈ f.idents, id.symbol? = none) :
    AddsGlobal base t f.resolve globals FuncDecl.id (FuncDecl.sites globals)
      (FuncDecl.relabel id Ident.bare) f := by
  simp only [FuncDecl.idents, Block.idents, List.mem_append, List.mem_flatMap] at hFresh
  obtain ⟨id', t₁, errors₁, hYields₁, hReady₁, -, -, hMirrors₁, hSettled₁, hBare₁⟩ :=
    declareHere_adds hReady hMirrors f.id (hFresh f.id (by simp))
      (show (Meaning.function f.result.name f.paramTypes).category ≠ .undefined by
        simp [Meaning.category])
      (by rintro _ ⟨⟩)
  -- the formals and the variables of the body, in one new scope
  have hInner := ready_push hReady₁.proper
  obtain ⟨formals, t₂, errors₂, hYields₂, hFormals, hBare₂⟩ :=
    formals_declare hInner f.formals fun d hd =>
      hFresh d.id (.inl (.inr ⟨d, hd, by simp [Formal.idents]⟩))
  obtain ⟨decls, t₃, errors₃, hYields₃, hDecls, hBare₃⟩ :=
    resolveLocals_declares (hFormals.ready hInner) [] f.body.decls fun d hd =>
      hFresh d.id (.inr (.inl ⟨d, hd, by simp [VarDecl.idents]⟩))
  have hNames := hFormals.append hDecls
  -- the statements see all of them
  obtain ⟨stmts, t₄, errors₄, hYields₄, hFrame, hProper₄, hSettled₄, hBare₄⟩ :=
    Stmt.resolveAll_walks f.body.stmts t₃ _ (hNames.ready hInner).proper
      (hNames.mirrors rfl hInner.proper hInner.base_le hMirrors₁.push) fun id h =>
        hFresh id (.inr (.inr h))
  have hWhole := Frame.of_push hNames hFrame
  refine ⟨⟨f.result, id', formals, ⟨decls, stmts⟩⟩, { t₄ with stack := t₁.stack },
    errors₁ ++ (errors₂ ++ (errors₃ ++ errors₄)), ?_, hReady₁.stack.trans hReady.stack.symm,
    hProper₄.leave hReady₁.proper hWhole.length, hWhole.mirrors hReady₁.proper hMirrors₁, ?_, ?_⟩
  · exact FuncDecl.resolve_yields hYields₁ hYields₂ hYields₃ hYields₄
      (hFrame.stack.trans hNames.stack)
  · have hInside := (hNames.settled [globals ++ [id']] []).append hSettled₄
    rw [List.append_assoc] at hInside
    exact hSettled₁.append hInside
  · show FuncDecl.mk _ _ _ _ = FuncDecl.mk _ _ _ _
    rw [hBare₁, hBare₂, Block.relabel, Block.relabel, hBare₃, hBare₄]

/-- A struct adds its name to the global ones, and settles the sites of its fields. -/
theorem structDecl_adds (hReady : Ready base k [k] t) (hMirrors : t.Mirrors [globals])
    (s : StructDecl) (hFresh : ∀ id ∈ s.idents, id.symbol? = none) :
    AddsGlobal base t s.resolve globals StructDecl.id (StructDecl.sites globals)
      (StructDecl.relabel Ident.bare) s := by
  -- the scope of the fields is made first, so that the symbol of the struct can refer to it
  have hNew : Ready base k [k] t.newScope.2 :=
    { proper := hReady.proper.newScope
      base_le := hReady.base_le
      made := by
        rw [newScope_length]
        exact Nat.lt_succ_of_lt hReady.made
      stack := hReady.stack }
  obtain ⟨id', t₁, errors₁, hYields₁, hReady₁, hLength₁, -, hMirrors₁, hSettled₁, hBare₁⟩ :=
    declareHere_adds hNew hMirrors.newScope s.id (hFresh s.id (by simp [StructDecl.idents]))
      (show (Meaning.structDecl t.store.length).category ≠ .undefined by simp [Meaning.category])
      (fun inside h => by
        obtain rfl := Option.some.inj h
        exact hReady.proper.length)
  -- the fields, in a scope that is not on the stack, so that no name of theirs is visible
  have hFields : Ready base t.store.length [k] t₁ :=
    { proper := hReady₁.proper
      base_le := hReady.proper.length
      made := by
        rw [hLength₁, newScope_length]
        exact Nat.lt_succ_self _
      stack := hReady₁.stack }
  obtain ⟨fields, t₂, errors₂, hYields₂, hDeclared, hBare₂⟩ :=
    fields_declare hFields s.fields fun d hd =>
      hFresh d.id (List.mem_cons_of_mem _ (mem_idents_of_mem_decls hd))
  -- the scopes on the stack are not the one of the fields
  have hMirrors₂ : t₂.Mirrors [globals ++ [id']] := by
    unfold Mirrors at hMirrors₁ ⊢
    rw [hDeclared.stack]
    refine MirrorsOn.congr hMirrors₁ fun j hj => hDeclared.other ?_
    rw [hReady₁.stack, List.mem_singleton] at hj
    rw [hj]
    exact Nat.ne_of_lt hReady.made
  refine ⟨⟨id', fields⟩, t₂, errors₁ ++ errors₂, StructDecl.resolve_yields hYields₁ hYields₂, ?_,
    (hDeclared.ready hFields).proper, hMirrors₂, hSettled₁.append (hDeclared.settled_at _), ?_⟩
  · rw [hDeclared.stack, hReady₁.stack, hReady.stack]
  · show StructDecl.mk _ _ = StructDecl.mk _ _
    rw [hBare₁, hBare₂]

/-! ## Programs -/

/-- A declaration of the program adds its name to the global ones. -/
theorem decl_adds (hReady : Ready base k [k] t) (hMirrors : t.Mirrors [globals])
    (d : Decl) (hFresh : ∀ id ∈ d.idents, id.symbol? = none) :
    AddsGlobal base t d.resolve globals Decl.id (Decl.sites globals)
      (Decl.relabel id Ident.bare) d := by
  -- each kind of declaration makes one step, and the program takes it as it is
  cases d with
  | var d =>
    obtain ⟨d', t', errors, hYields, hStack, hProper, hMirrors', hSettled, hBare⟩ :=
      varDecl_adds hReady hMirrors d (hFresh d.id (by simp [Decl.idents, VarDecl.idents]))
    exact ⟨.var d', t', errors, hYields.map Decl.var, hStack, hProper, hMirrors', hSettled,
      congrArg Decl.var hBare⟩
  | func f =>
    obtain ⟨f', t', errors, hYields, hStack, hProper, hMirrors', hSettled, hBare⟩ :=
      funcDecl_adds hReady hMirrors f hFresh
    exact ⟨.func f', t', errors, hYields.map Decl.func, hStack, hProper, hMirrors', hSettled,
      congrArg Decl.func hBare⟩
  | struct s =>
    obtain ⟨s', t', errors, hYields, hStack, hProper, hMirrors', hSettled, hBare⟩ :=
      structDecl_adds hReady hMirrors s hFresh
    exact ⟨.struct s', t', errors, hYields.map Decl.struct, hStack, hProper, hMirrors', hSettled,
      congrArg Decl.struct hBare⟩

/-- The declarations of a program add their names one by one. -/
theorem decls_add (hReady : Ready base k [k] t) (hMirrors : t.Mirrors [globals])
    (ds : List Decl) (hFresh : ∀ d ∈ ds, ∀ id ∈ d.idents, id.symbol? = none) :
    ∃ ds' t' errors, Yields (ds.mapM Decl.resolve) t ds' t' errors ∧
      Settled (declSites globals ds') errors ∧
      ds'.map (Decl.relabel id Ident.bare) = ds.map (Decl.relabel id Ident.bare) := by
  induction ds generalizing t globals with
  | nil => exact ⟨[], t, [], Yields.pure [] t, .nil, rfl⟩
  | cons d ds ih =>
    obtain ⟨d', t₁, errors₁, hYields₁, hStack₁, hProper₁, hMirrors₁, hSettled₁, hBare₁⟩ :=
      decl_adds hReady hMirrors d (hFresh d List.mem_cons_self)
    -- only the global scope is open between two declarations
    have hReady₁ : Ready base k [k] t₁ :=
      { proper := hProper₁
        base_le := hReady.base_le
        made := (hProper₁.made k (by simp [hStack₁, hReady.stack])).2
        stack := hStack₁.trans hReady.stack }
    obtain ⟨ds', t₂, errors₂, hYields₂, hSettled₂, hBare₂⟩ :=
      ih hReady₁ hMirrors₁ fun e he => hFresh e (List.mem_cons_of_mem d he)
    refine ⟨d' :: ds', t₂, errors₁ ++ errors₂, hYields₁.mapM_cons hYields₂,
      hSettled₁.append hSettled₂, ?_⟩
    rw [List.map_cons, List.map_cons, hBare₁, hBare₂]

/-- No identifier carries a symbol. -/
def Program.Fresh (p : Program) : Prop :=
  ∀ id ∈ p.idents, id.symbol? = none

/-- An analysis of a fresh program does not fail and settles every site of the program. -/
theorem analyze_settles (a : Analyzer) {p : Program} (hFresh : p.Fresh) :
    ∃ q b, a.analyze p = .ok (q, b) ∧ q.bare = p.bare ∧ Settled q.sites b.errors := by
  have hReady : Ready a.table.store.length a.table.store.length [a.table.store.length]
      a.table.restart :=
    { proper := Proper.restart a.table
      base_le := Nat.le_refl _
      made := by simp
      stack := rfl }
  -- the global scope is a new one, in which nothing is bound
  have hMirrors : a.table.restart.Mirrors [[]] := by
    refine .cons (fun name => ?_) .nil
    rw [restart_scope, scope_of_length_le (Nat.le_refl _)]
    rfl
  obtain ⟨decls, t, errors, hYields, hSettled, hBare⟩ :=
    decls_add hReady hMirrors p.decls fun d hd id hid =>
      hFresh id (List.mem_flatMap.mpr ⟨d, hd, hid⟩)
  obtain ⟨b, hAnalyze, -, rfl⟩ := analyze_of_yields hYields
  exact ⟨⟨decls⟩, b, hAnalyze, congrArg Program.mk hBare, hSettled⟩

end NameResolution
