import NameResolution.Analysis.Analyzer
import NameResolution.Proofs.Scope.Table

/-!
# Yields — what a part of the walk does, whatever was reported before it

A part of the walk reads and changes the symbol table, and it adds errors behind the ones that are
there. `Yields part t x t' ds` says that under the table `t` it answers `x`, leaves the table `t'`,
adds the errors `ds` and has passed them on to the sink. It also says that the part does not fail.

* `Yields.bind` — one part after another.
* `Stmt.assign_yields`, …, `Stmt.loop_yields` — the statements, one lemma for each kind.
* `inScope_yields`, `FuncDecl.resolve_yields`, `StructDecl.resolve_yields` — the constructs that
  change the scope.
* `analyze_of_yields` — a whole analysis.
-/

namespace NameResolution.Analysis

/-- Under the table `t`, the part answers `x`, leaves the table `t'`, adds the errors `ds` to those
before it and reports them to whatever sink there is. -/
def Yields {α : Type} (part : Resolve α) (t : SymbolTable) (x : α) (t' : SymbolTable)
    (ds : List Diagnostic) : Prop :=
  ∀ before sink,
    part.run ⟨t, before, sink⟩ = .ok (x, ⟨t', before ++ ds, ds.foldl Collector.report sink⟩)

variable {α β : Type} {part : Resolve α} {t t' t'' : SymbolTable} {x : α} {y : β}
  {ds ds' : List Diagnostic}

/-- A part comes to one thing only. -/
theorem Yields.unique {x' : α} (h : Yields part t x t' ds) (h' : Yields part t x' t'' ds') :
    x = x' ∧ t' = t'' ∧ ds = ds' := by
  obtain ⟨hAnswer, hState⟩ := Prod.mk.inj (Except.ok.inj ((h [] {}).symm.trans (h' [] {})))
  obtain ⟨hTable, hErrors, -⟩ := State.mk.inj hState
  exact ⟨hAnswer, hTable, hErrors⟩

/-! ## Composition -/

/-- An answer alone changes nothing and reports nothing. -/
theorem Yields.pure (x : α) (t : SymbolTable) : Yields (Pure.pure x) t x t [] := by
  intro before sink
  rw [List.append_nil]
  rfl

/-- Two parts in a row report one after the other. -/
theorem Yields.bind {next : α → Resolve β} (hFirst : Yields part t x t' ds)
    (hNext : Yields (next x) t' y t'' ds') : Yields (part >>= next) t y t'' (ds ++ ds') := by
  intro before sink
  rw [Resolve.run_bind, hFirst before sink]
  show (next x).run ⟨t', before ++ ds, ds.foldl Collector.report sink⟩ = _
  rw [hNext, List.append_assoc, List.foldl_append]

/-- A part that adds no errors, before another one. -/
theorem Yields.bind_silent {next : α → Resolve β} (hFirst : Yields part t x t' [])
    (hNext : Yields (next x) t' y t'' ds) : Yields (part >>= next) t y t'' ds :=
  hFirst.bind hNext

/-- A part whose answer is only wrapped afterwards. -/
theorem Yields.bind_pure (h : Yields part t x t' ds) (f : α → β) :
    Yields (part >>= fun a => Pure.pure (f a)) t (f x) t' ds := by
  rw [← List.append_nil ds]
  exact h.bind (Yields.pure (f x) t')

/-- Making something of the answer changes nothing else. -/
theorem Yields.map (h : Yields part t x t' ds) (f : α → β) :
    Yields (f <$> part) t (f x) t' ds := by
  rw [map_eq_pure_bind]
  exact h.bind_pure f

/-! ## Reading and reporting -/

/-- Looking at the table answers with it. -/
theorem getTable_yields (t : SymbolTable) : Yields getTable t t t [] := by
  intro before sink
  rw [List.append_nil]
  rfl

/-- The table is replaced, and nothing is reported. -/
theorem setTable_yields (t t' : SymbolTable) : Yields (setTable t') t () t' [] := by
  intro before sink
  rw [List.append_nil]
  rfl

/-- One report, in front of the rest of a part. -/
theorem Yields.tell {d : Diagnostic} (h : Yields part t x t' ds) :
    Yields (.tell d part) t x t' (d :: ds) := by
  intro before sink
  show part.run ⟨t, before ++ [d], sink.report d⟩ = _
  rw [h, List.append_assoc]
  rfl

/-- The errors are reported in their order. -/
theorem report_yields (ds : List Diagnostic) (t : SymbolTable) : Yields (report ds) t () t ds := by
  induction ds with
  | nil => exact .pure () t
  | cons d ds ih => exact ih.tell

/-- A use looks at the table, reports its errors and answers what it has bound. -/
theorem use_yields {errors : SymbolTable → List Diagnostic} {answer : SymbolTable → α}
    (t : SymbolTable) :
    Yields (do let t ← getTable; report (errors t); Pure.pure (answer t)) t (answer t) t
      (errors t) :=
  (getTable_yields t).bind_silent ((report_yields (errors t) t).bind_pure fun _ => answer t)

/-- A name is used as the table says. -/
theorem useIdent_yields (id : Ident) (t : SymbolTable) :
    Yields (useIdent id) t (id.annotate t) t (id.diagnose t) := use_yields t

/-- A location is used as the table says. -/
theorem useLoc_yields (location : Loc) (t : SymbolTable) :
    Yields (useLoc location) t (location.annotate t) t (location.diagnose t) := use_yields t

/-- The uses of an expression are those of its parts, in order. -/
theorem useExpr_yields (e : Expr) (t : SymbolTable) :
    Yields (useExpr e) t (e.annotate t) t (e.diagnose t) := use_yields t

/-- The uses of some expressions come one after the other. -/
theorem useExprs_yields (es : List Expr) (t : SymbolTable) :
    Yields (useExprs es) t (Expr.annotateAll t es) t (Expr.diagnoseAll t es) := use_yields t

/-! ## Scopes -/

/-- A stack operation that succeeds. -/
theorem liftM_yields {answer : Except ScopeError α} (h : answer = .ok x) (t : SymbolTable) :
    Yields (liftM answer) t x t [] := by
  intro before sink
  rw [List.append_nil, h]
  rfl

/-- The innermost scope is the first of the stack. -/
theorem currentScope_yields {id : ScopeId} {rest : List ScopeId} (h : t.stack = id :: rest) :
    Yields currentScope t id t [] := by
  have hCurrent : t.current = .ok id := by
    rw [SymbolTable.current, h]
  exact (getTable_yields t).bind_silent (liftM_yields hCurrent t)

/-- A new scope is not on the stack. -/
theorem newScope_yields (t : SymbolTable) :
    Yields newScope t t.store.length t.newScope.2 [] :=
  (getTable_yields t).bind_silent <|
    (setTable_yields t t.newScope.2).bind_silent (Yields.pure t.store.length _)

/-- A part that walks in a new scope and closes all scopes that it opens leaves the stack as it
was. -/
theorem inScope_yields (h : Yields part t.push.2 x t' ds) (hStack : t'.stack = t.push.2.stack) :
    Yields (inScope part) t x { t' with stack := t.stack } ds := by
  have hPop : t'.pop = .ok (t.store.length, { t' with stack := t.stack }) := by
    rw [SymbolTable.pop, hStack, SymbolTable.push_stack]
  refine (getTable_yields t).bind_silent ?_
  -- push, walk, pop
  refine (setTable_yields t t.push.2).bind_silent ?_
  rw [← List.append_nil ds]
  refine h.bind ?_
  refine (getTable_yields t').bind_silent ?_
  refine (liftM_yields hPop t').bind_silent ?_
  exact (setTable_yields t' _).bind_silent (Yields.pure x _)

/-! ## Lists -/

theorem Yields.mapM_cons {step : α → Resolve β} {x : α} {xs : List α} {ys : List β}
    (hFirst : Yields (step x) t y t' ds) (hRest : Yields (xs.mapM step) t' ys t'' ds') :
    Yields ((x :: xs).mapM step) t (y :: ys) t'' (ds ++ ds') := by
  rw [List.mapM_cons]
  exact hFirst.bind (hRest.bind_pure fun ys => y :: ys)

end NameResolution.Analysis

namespace NameResolution

open Analysis

/-! ## Statements -/

section Statements

variable {t t' t'' : SymbolTable} {ds ds' : List Diagnostic} {cond : Expr} {b b' c c' : Block Stmt}

/-- The target is used before the value. -/
theorem Stmt.assign_yields (target : Loc) (value : Expr) (t : SymbolTable) :
    Yields (Stmt.assign target value).resolve t (.assign (target.annotate t) (value.annotate t)) t
      (target.diagnose t ++ value.diagnose t) :=
  (useLoc_yields target t).bind ((useExpr_yields value t).bind_pure _)

theorem Stmt.increment_yields (target : Loc) (t : SymbolTable) :
    Yields (Stmt.increment target).resolve t (.increment (target.annotate t)) t
      (target.diagnose t) :=
  (useLoc_yields target t).bind_pure _

theorem Stmt.decrement_yields (target : Loc) (t : SymbolTable) :
    Yields (Stmt.decrement target).resolve t (.decrement (target.annotate t)) t
      (target.diagnose t) :=
  (useLoc_yields target t).bind_pure _

theorem Stmt.read_yields (target : Loc) (t : SymbolTable) :
    Yields (Stmt.read target).resolve t (.read (target.annotate t)) t (target.diagnose t) :=
  (useLoc_yields target t).bind_pure _

theorem Stmt.write_yields (value : Expr) (t : SymbolTable) :
    Yields (Stmt.write value).resolve t (.write (value.annotate t)) t (value.diagnose t) :=
  (useExpr_yields value t).bind_pure _

theorem Stmt.call_yields (callee : Ident) (args : List Expr) (t : SymbolTable) :
    Yields (Stmt.call callee args).resolve t (.call (callee.annotate t) (Expr.annotateAll t args)) t
      (callee.diagnose t ++ Expr.diagnoseAll t args) :=
  (useIdent_yields callee t).bind ((useExprs_yields args t).bind_pure _)

theorem Stmt.retNone_yields (t : SymbolTable) :
    Yields (Stmt.ret none).resolve t (.ret none) t [] :=
  Yields.pure _ t

theorem Stmt.retSome_yields (value : Expr) (t : SymbolTable) :
    Yields (Stmt.ret (some value)).resolve t (.ret (some (value.annotate t))) t
      (value.diagnose t) :=
  (useExpr_yields value t).bind_pure _

/-- The condition is used before the block. -/
theorem Stmt.ifThen_yields (h : Yields (inBlock b.decls (Stmt.resolveAll b.stmts)) t b' t' ds) :
    Yields (Stmt.ifThen cond b).resolve t (.ifThen (cond.annotate t) b') t'
      (cond.diagnose t ++ ds) :=
  (useExpr_yields cond t).bind (h.bind_pure _)

/-- The condition is used first, then the blocks follow. -/
theorem Stmt.ifElse_yields (h : Yields (inBlock b.decls (Stmt.resolveAll b.stmts)) t b' t' ds)
    (hElse : Yields (inBlock c.decls (Stmt.resolveAll c.stmts)) t' c' t'' ds') :
    Yields (Stmt.ifElse cond b c).resolve t (.ifElse (cond.annotate t) b' c') t''
      (cond.diagnose t ++ (ds ++ ds')) :=
  (useExpr_yields cond t).bind (h.bind (hElse.bind_pure _))

theorem Stmt.loop_yields (h : Yields (inBlock b.decls (Stmt.resolveAll b.stmts)) t b' t' ds) :
    Yields (Stmt.loop cond b).resolve t (.loop (cond.annotate t) b') t'
      (cond.diagnose t ++ ds) :=
  (useExpr_yields cond t).bind (h.bind_pure _)

end Statements

/-! ## Declarations -/

section Locals

variable {t t' t'' : SymbolTable} {ds ds' : List Diagnostic} {seen : List String} {d d' : VarDecl}
  {decls decls' : List VarDecl}

/-- The second variable of a function body that is named like a formal. -/
theorem resolveLocals_repeated
    (hRepeats : (seen.contains d.id.name && (t.lookupLocal d.id.name).any Symbol.isFormal) = true)
    (hRest : Yields (resolveLocals (d.id.name :: seen) decls) t decls' t' ds) :
    Yields (resolveLocals seen (d :: decls)) t (d :: decls') t'
      ([.located .multiplyDeclared d.id.pos] ++ ds) := by
  rw [resolveLocals]
  refine (getTable_yields t).bind_silent ?_
  simp only [hRepeats, if_true]
  refine (report_yields _ t).bind ?_
  exact (Yields.pure d t).bind_silent (hRest.bind_pure fun rest => d :: rest)

/-- Any other variable of a function body is declared in the usual way. -/
theorem resolveLocals_resolved
    (hNew : ¬ (seen.contains d.id.name &&
      (t.lookupLocal d.id.name).any Symbol.isFormal) = true)
    (hFirst : Yields d.resolve t d' t' ds)
    (hRest : Yields (resolveLocals (d.id.name :: seen) decls) t' decls' t'' ds') :
    Yields (resolveLocals seen (d :: decls)) t (d' :: decls') t'' (ds ++ ds') := by
  rw [resolveLocals]
  refine (getTable_yields t).bind_silent ?_
  simp only [hNew]
  exact hFirst.bind (hRest.bind_pure fun rest => d' :: rest)

end Locals

/-- The name of a function, and in a scope of their own its formals, variables and statements. -/
theorem FuncDecl.resolve_yields {f : FuncDecl} {id' : Ident} {formals : List Formal}
    {decls : List VarDecl} {stmts : List Stmt} {t t₁ t₂ t₃ t₄ : SymbolTable}
    {ds₁ ds₂ ds₃ ds₄ : List Diagnostic}
    (hName : Yields (declareHere f.id (.function f.result.name f.paramTypes)) t id' t₁ ds₁)
    (hFormals : Yields (f.formals.mapM Formal.resolve) t₁.push.2 formals t₂ ds₂)
    (hDecls : Yields (resolveLocals [] f.body.decls) t₂ decls t₃ ds₃)
    (hStmts : Yields (Stmt.resolveAll f.body.stmts) t₃ stmts t₄ ds₄)
    (hStack : t₄.stack = t₁.push.2.stack) :
    Yields f.resolve t ⟨f.result, id', formals, ⟨decls, stmts⟩⟩ { t₄ with stack := t₁.stack }
      (ds₁ ++ (ds₂ ++ (ds₃ ++ ds₄))) := by
  refine hName.bind (inScope_yields ?_ hStack)
  -- the formals, the variables and the statements share one scope, and none of them leaves it
  refine hFormals.bind (Yields.bind_pure ?_ (FuncDecl.mk f.result id' formals))
  exact hDecls.bind (hStmts.bind_pure (Block.mk decls))

/-- A new scope, the name of a struct, and its fields in that scope. -/
theorem StructDecl.resolve_yields {s : StructDecl} {id' : Ident} {fields : List VarDecl}
    {t t₁ t₂ : SymbolTable} {ds₁ ds₂ : List Diagnostic}
    (hName : Yields (declareHere s.id (.structDecl t.store.length)) t.newScope.2 id' t₁ ds₁)
    (hFields : Yields (s.fields.mapM (VarDecl.resolveIn t.store.length)) t₁ fields t₂ ds₂) :
    Yields s.resolve t ⟨id', fields⟩ t₂ (ds₁ ++ ds₂) := by
  refine (newScope_yields t).bind_silent (hName.bind ?_)
  exact hFields.bind_pure (StructDecl.mk id')

/-- An analysis walks over the declarations of its program from an empty global scope on. -/
theorem analyze_of_yields {a : Analyzer} {p : Program} {decls : List Decl} {t : SymbolTable}
    {ds : List Diagnostic}
    (h : Yields (p.decls.mapM Decl.resolve) a.table.restart decls t ds) :
    ∃ b, a.analyze p = .ok (⟨decls⟩, b) ∧ b.table = t ∧ b.errors = ds := by
  obtain ⟨sink, hRun⟩ : ∃ sink, p.resolve.run a.start = .ok (⟨decls⟩, ⟨t, ds, sink⟩) :=
    ⟨_, (h.bind_pure Program.mk) [] a.start.sink⟩
  rw [Analyzer.analyze, hRun]
  exact ⟨_, rfl, rfl, rfl⟩

end NameResolution
