import NameResolution.Proofs.Analysis.Outcome
import NameResolution.Proofs.Tree.Parts

/-!
# Traces — an analysis as one step after another

The walk is written along the tree, but what it comes to is a row of steps: it opens and closes
scopes, declares names and looks names up, in the order of the parts of the tree. Here the tree is
left behind. What every step keeps is kept by an analysis, whatever the tree looks like and
whatever symbols it carries already.

* `Part.Does` — all that a step can do to the symbol table and to its own part.
* `Run` — steps one after another.
* `analyze_runs` — an analysis does not fail and is a run over the parts of its program.
-/

namespace NameResolution

open Analysis SymbolTable

/-! ## Steps -/

/-- The spot with a symbol on each use. -/
def Spot.annotate (t : SymbolTable) : Spot → Spot
  | declaration id typeNames => .declaration id typeNames
  | location l => .location (l.annotate t)
  | callee id => .callee (id.annotate t)

/-- The errors in the uses of a spot. -/
def Spot.diagnose (t : SymbolTable) : Spot → List Diagnostic
  | declaration _ _ => []
  | location l => l.diagnose t
  | callee id => id.diagnose t

/-- What becomes of declarations that are made in the scope `k` one after another. -/
inductive Outcomes (k : ScopeId) :
    SymbolTable → List VarDecl → SymbolTable → List VarDecl → List Diagnostic → Prop where
  | nil (t : SymbolTable) : Outcomes k t [] t [] []
  | cons {t t' t'' : SymbolTable} {d d' : VarDecl} {ds ds' : List VarDecl}
    {errors errors' : List Diagnostic} (hHead : d.Outcome t k d' t' errors)
    (hRest : Outcomes k t' ds t'' ds' errors') :
    Outcomes k t (d :: ds) t'' (d' :: ds') (errors ++ errors')

/-- What the walk does at a part under a table: the table after it, the part with its symbols, and
the errors. -/
inductive Part.Does (t : SymbolTable) : Part → SymbolTable → Part → List Diagnostic → Prop where
  | opens : Does t .opens t.push.2 .opens []
  -- a scope is only left for one around it
  | closes {inner k : ScopeId} {rest : List ScopeId} (hStack : t.stack = inner :: k :: rest) :
    Does t .closes { t with stack := k :: rest } .closes []
  -- functions and structs are declared in the global scope
  | func {k : ScopeId} {id id' : Ident} {result : String} {params : List String}
    {t' : SymbolTable} {errors : List Diagnostic} (hStack : t.stack = [k])
    (h : Declares k id (.function result params) t id' t' errors) :
    Does t (.func id result params) t' (.func id' result params) errors
  | formal {k : ScopeId} {rest : List ScopeId} {f : Formal} {id' : Ident} {t' : SymbolTable}
    {errors : List Diagnostic} (hStack : t.stack = k :: rest)
    (h : Declares k f.id (.formal f.type.name) t id' t' errors) :
    Does t (.formal f) t' (.formal { f with id := id' }) errors
  | var {k : ScopeId} {rest : List ScopeId} {d d' : VarDecl} {t' : SymbolTable}
    {errors : List Diagnostic} (hStack : t.stack = k :: rest)
    (h : d.Outcome t k d' t' errors) : Does t (.var d) t' (.var d') errors
  /-- A name that is repeated in a function body without being that of a formal. -/
  | again {k : ScopeId} {rest : List ScopeId} {d d' : VarDecl} {t' : SymbolTable}
    {errors : List Diagnostic} (hStack : t.stack = k :: rest)
    (hFormal : (t.lookupLocal d.id.name).any Symbol.isFormal = false)
    (h : d.Outcome t k d' t' errors) : Does t (.again d) t' (.again d') errors
  /-- The second variable named like a formal. -/
  | repeated {d : VarDecl} (hFormal : (t.lookupLocal d.id.name).any Symbol.isFormal = true) :
    Does t (.again d) t (.again d) [.located .multiplyDeclared d.id.pos]
  /-- The scope of the fields is made first, and filled when the struct has its name. -/
  | struct {k : ScopeId} {s : StructDecl} {id' : Ident} {fields' : List VarDecl}
    {t₁ t₂ : SymbolTable} {errors₁ errors₂ : List Diagnostic} (hStack : t.stack = [k])
    (hName : Declares k s.id (.structDecl t.store.length) t.newScope.2 id' t₁ errors₁)
    (hFields : Outcomes t.store.length t₁ s.fields t₂ fields' errors₂) :
    Does t (.struct s) t₂ (.struct ⟨id', fields'⟩) (errors₁ ++ errors₂)
  | use (spot : Spot) : Does t (.use spot) t (.use (spot.annotate t)) (spot.diagnose t)

/-! ## Runs -/

/-- Steps one after another. -/
inductive Run : SymbolTable → List Part → SymbolTable → List Part → List Diagnostic → Prop where
  | nil (t : SymbolTable) : Run t [] t [] []
  | cons {t t' t'' : SymbolTable} {part part' : Part} {parts parts' : List Part}
    {errors errors' : List Diagnostic} (hStep : part.Does t t' part' errors)
    (hRest : Run t' parts t'' parts' errors') :
    Run t (part :: parts) t'' (part' :: parts') (errors ++ errors')

variable {α β γ : Type} {t t' t'' : SymbolTable} {parts parts' more more' : List Part}
  {errors errors' : List Diagnostic} {k : ScopeId} {stack rest : List ScopeId}

theorem Run.append (h : Run t parts t' parts' errors) (h' : Run t' more t'' more' errors') :
    Run t (parts ++ more) t'' (parts' ++ more') (errors ++ errors') := by
  induction h with
  | nil t => exact h'
  | cons hStep _ ih =>
    rw [List.append_assoc]
    exact .cons hStep (ih h')

/-- One step is a run. -/
theorem Run.single {part part' : Part} (h : part.Does t t' part' errors) :
    Run t [part] t' [part'] errors := by
  rw [← List.append_nil errors]
  exact .cons h (.nil t')

/-- A run in a scope of its own. -/
theorem Run.nested {inner : ScopeId} (h : Run t.push.2 parts t' parts' errors)
    (hStack : t'.stack = inner :: k :: rest) :
    Run t (nested parts) { t' with stack := k :: rest } (nested parts') errors := by
  have hClosed := h.append (.single (.closes hStack))
  rw [List.append_nil] at hClosed
  exact .cons .opens hClosed

/-- Uses see the same table one after another. -/
theorem Run.uses (t : SymbolTable) (spots : List Spot) :
    Run t (usesOf spots) t (usesOf (spots.map (Spot.annotate t)))
      (spots.flatMap (Spot.diagnose t)) := by
  induction spots with
  | nil => exact .nil t
  | cons spot spots ih => exact .cons (.use spot) ih

/-- A formal keeps its type. -/
theorem Run.formal_types {fs fs' : List Formal}
    (h : Run t (fs.map .formal) t' (fs'.map .formal) errors) :
    fs'.map Formal.type = fs.map Formal.type := by
  -- induction on the formals; the parts of a run are as many as its steps
  induction fs generalizing t fs' errors with
  | nil =>
    cases fs' with
    | nil => rfl
    | cons f' fs' => cases h
  | cons f fs ih =>
    cases fs' with
    | nil => cases h
    | cons f' fs' =>
      cases h with
      | cons hStep hRest =>
        cases hStep
        rw [List.map_cons, List.map_cons, ih hRest]

/-! ## Expressions as uses -/

mutual

/-- Annotating an expression annotates its spots. -/
theorem Expr.spots_annotate (t : SymbolTable) :
    (e : Expr) → (e.annotate t).spots = e.spots.map (Spot.annotate t)
  | .trueLit _ | .falseLit _ | .intLit _ _ | .strLit _ _ => rfl
  | .loc location => rfl
  | .assign target value => by
    rw [Expr.annotate, Expr.spots, Expr.spots, Expr.spots_annotate t value]
    rfl
  | .call callee args => by
    rw [Expr.annotate, Expr.spots, Expr.spots, Expr.spotsAll_annotate t args]
    rfl
  | .unary op operand => by
    rw [Expr.annotate, Expr.spots, Expr.spots, Expr.spots_annotate t operand]
  | .binary op left right => by
    rw [Expr.annotate, Expr.spots, Expr.spots, Expr.spots_annotate t left,
      Expr.spots_annotate t right, List.map_append]

theorem Expr.spotsAll_annotate (t : SymbolTable) :
    (es : List Expr) →
      Expr.spotsAll (Expr.annotateAll t es) = (Expr.spotsAll es).map (Spot.annotate t)
  | [] => rfl
  | e :: es => by
    rw [Expr.annotateAll, Expr.spotsAll, Expr.spotsAll, Expr.spots_annotate t e,
      Expr.spotsAll_annotate t es, List.map_append]

end

mutual

/-- The errors of an expression are those of its spots, in order. -/
theorem Expr.diagnose_spots (t : SymbolTable) :
    (e : Expr) → e.spots.flatMap (Spot.diagnose t) = e.diagnose t
  | .trueLit _ | .falseLit _ | .intLit _ _ | .strLit _ _ => rfl
  | .loc location => by simp [Expr.spots, Expr.diagnose, Spot.diagnose]
  | .assign target value => by
    rw [Expr.spots, Expr.diagnose, List.flatMap_cons, Expr.diagnose_spots t value]
    rfl
  | .call callee args => by
    rw [Expr.spots, Expr.diagnose, List.flatMap_cons, Expr.diagnoseAll_spots t args]
    rfl
  | .unary op operand => by rw [Expr.spots, Expr.diagnose, Expr.diagnose_spots t operand]
  | .binary op left right => by
    rw [Expr.spots, Expr.diagnose, List.flatMap_append, Expr.diagnose_spots t left,
      Expr.diagnose_spots t right]

theorem Expr.diagnoseAll_spots (t : SymbolTable) :
    (es : List Expr) → (Expr.spotsAll es).flatMap (Spot.diagnose t) = Expr.diagnoseAll t es
  | [] => rfl
  | e :: es => by
    rw [Expr.spotsAll, Expr.diagnoseAll, List.flatMap_append, Expr.diagnose_spots t e,
      Expr.diagnoseAll_spots t es]

end

/-! ## Parts of the walk as runs -/

/-- With the scopes `stack` open, the walk of `x` does not fail, takes the steps of `x`, and leaves
the same scopes open. -/
def Traced (stack : List ScopeId) (part : Resolve α) (parts : α → List Part) (x : α) : Prop :=
  ∀ t, t.stack = stack → ∃ x' t' errors, Yields part t x' t' errors ∧
    Run t (parts x) t' (parts x') errors ∧ t'.stack = stack

namespace Traced

variable {part : Resolve α} {part' : Resolve β} {partsOf : α → List Part}
  {partsOf' : β → List Part} {x : α} {y : β}

/-- A part of the walk whose answer is only wrapped afterwards. -/
theorem bind_pure (h : Traced stack part partsOf x) {make : α → β}
    (hMake : ∀ x, partsOf' (make x) = partsOf x) :
    Traced stack (part >>= fun a => pure (make a)) partsOf' (make x) := by
  intro t ht
  obtain ⟨x', t', errors, hYields, hRun, hStack⟩ := h t ht
  refine ⟨make x', t', errors, hYields.bind_pure make, ?_, hStack⟩
  rw [hMake, hMake]
  exact hRun

/-- Two parts of the walk, and what is made of their answers. -/
theorem pair (h : Traced stack part partsOf x) (h' : Traced stack part' partsOf' y)
    {make : α → β → γ} {whole : γ → List Part}
    (hMake : ∀ x y, whole (make x y) = partsOf x ++ partsOf' y) :
    Traced stack (part >>= fun a => part' >>= fun b => pure (make a b)) whole (make x y) := by
  intro t ht
  obtain ⟨x', t₁, errors₁, hYields₁, hRun₁, hStack₁⟩ := h t ht
  obtain ⟨y', t₂, errors₂, hYields₂, hRun₂, hStack₂⟩ := h' t₁ hStack₁
  refine ⟨make x' y', t₂, errors₁ ++ errors₂, hYields₁.bind (hYields₂.bind_pure (make x')), ?_,
    hStack₂⟩
  rw [hMake, hMake]
  exact hRun₁.append hRun₂

/-- The same part of the walk for each member of a list. -/
theorem mapM {step : α → Resolve α} (h : ∀ x, Traced stack (step x) partsOf x) (xs : List α) :
    Traced stack (xs.mapM step) (List.flatMap partsOf) xs := by
  intro t ht
  induction xs generalizing t with
  | nil => exact ⟨[], t, [], Yields.pure [] t, .nil t, ht⟩
  | cons x xs ih =>
    obtain ⟨x', t₁, errors₁, hYields₁, hRun₁, hStack₁⟩ := h x t ht
    obtain ⟨xs', t₂, errors₂, hYields₂, hRun₂, hStack₂⟩ := ih t₁ hStack₁
    exact ⟨x' :: xs', t₂, errors₁ ++ errors₂, hYields₁.mapM_cons hYields₂, hRun₁.append hRun₂,
      hStack₂⟩

/-- A part of the walk in a scope of its own, whatever number that scope gets. -/
theorem inScope (h : ∀ inner, Traced (inner :: k :: rest) part partsOf x) :
    Traced (k :: rest) (Analysis.inScope part) (fun x => nested (partsOf x)) x := by
  intro t ht
  obtain ⟨x', t', errors, hYields, hRun, hStack⟩ :=
    h t.store.length t.push.2 (by rw [push_stack, ht])
  have hPushed : t'.stack = t.push.2.stack := by rw [hStack, push_stack, ht]
  refine ⟨x', { t' with stack := t.stack }, errors, inScope_yields hYields hPushed, ?_, ht⟩
  rw [ht]
  exact hRun.nested hStack

end Traced

theorem useExpr_traced (e : Expr) :
    Traced stack (useExpr e) (fun e => usesOf e.spots) e := by
  intro t ht
  refine ⟨_, t, _, useExpr_yields e t, ?_, ht⟩
  show Run t (usesOf e.spots) t (usesOf (e.annotate t).spots) (e.diagnose t)
  rw [Expr.spots_annotate, ← Expr.diagnose_spots]
  exact .uses t e.spots

theorem useExprs_traced (es : List Expr) :
    Traced stack (useExprs es) (fun es => usesOf (Expr.spotsAll es)) es := by
  intro t ht
  refine ⟨_, t, _, useExprs_yields es t, ?_, ht⟩
  show Run t (usesOf (Expr.spotsAll es)) t (usesOf (Expr.spotsAll (Expr.annotateAll t es)))
    (Expr.diagnoseAll t es)
  rw [Expr.spotsAll_annotate, ← Expr.diagnoseAll_spots]
  exact .uses t (Expr.spotsAll es)

theorem useLoc_traced (l : Loc) :
    Traced stack (useLoc l) (fun l => [.use (.location l)]) l :=
  fun t ht => ⟨_, t, _, useLoc_yields l t, .single (.use (.location l)), ht⟩

theorem useIdent_traced (id : Ident) :
    Traced stack (useIdent id) (fun id => [.use (.callee id)]) id :=
  fun t ht => ⟨_, t, _, useIdent_yields id t, .single (.use (.callee id)), ht⟩

/-! ## Declarations -/

/-- A declaration opens and closes no scope. -/
theorem Declares.stack_eq {id id' : Ident} {meaning : Meaning}
    (h : Declares k id meaning t id' t' errors) : t'.stack = t.stack := by
  cases h with
  | taken => rfl
  | bound h => exact (declareIn_eq_some h).2.1

/-- Whatever becomes of a variable, no scope is opened or closed. -/
theorem VarDecl.Outcome.stack_eq {d d' : VarDecl} (h : d.Outcome t k d' t' errors) :
    t'.stack = t.stack := by
  cases h with
  | formal | void | noStruct => rfl
  | typed _ _ hDeclares => exact hDeclares.stack_eq

/-- Whatever becomes of a variable, it keeps its name. -/
theorem VarDecl.Outcome.name_eq {d d' : VarDecl} (h : d.Outcome t k d' t' errors) :
    d'.id.name = d.id.name := by
  cases h with
  | formal | void | noStruct => rfl
  | typed _ _ hDeclares => cases hDeclares <;> rfl

theorem VarDecl.resolve_traced (d : VarDecl) :
    Traced (k :: rest) d.resolve (fun d => [.var d]) d := by
  intro t ht
  obtain ⟨d', t', errors, hYields, hOutcome⟩ := VarDecl.resolve_yields ht d
  exact ⟨d', t', errors, hYields, .single (.var ht hOutcome), hOutcome.stack_eq.trans ht⟩

theorem Formal.resolve_traced (f : Formal) :
    Traced (k :: rest) f.resolve (fun f => [.formal f]) f := by
  intro t ht
  obtain ⟨id', t', errors, hYields, hDeclares⟩ :=
    declareHere_yields ht f.id (.formal f.type.name)
  exact ⟨{ f with id := id' }, t', errors, hYields.bind_pure (Formal.mk f.type),
    .single (.formal ht hDeclares), hDeclares.stack_eq.trans ht⟩

theorem varDecls_traced (ds : List VarDecl) :
    Traced (k :: rest) (ds.mapM VarDecl.resolve) (List.map .var) ds := by
  have h : (List.map Part.var : List VarDecl → _) = List.flatMap fun d => [.var d] := by
    funext ds
    exact List.map_eq_flatMap
  rw [h]
  exact .mapM VarDecl.resolve_traced ds

theorem formals_traced (fs : List Formal) :
    Traced (k :: rest) (fs.mapM Formal.resolve) (List.map .formal) fs := by
  have h : (List.map Part.formal : List Formal → _) = List.flatMap fun f => [.formal f] := by
    funext fs
    exact List.map_eq_flatMap
  rw [h]
  exact .mapM Formal.resolve_traced fs

/-- The fields of a struct go to its field table one by one. -/
theorem fields_yields (k : ScopeId) (ds : List VarDecl) (t : SymbolTable) :
    ∃ ds' t' errors, Yields (ds.mapM (VarDecl.resolveIn k)) t ds' t' errors ∧
      Outcomes k t ds t' ds' errors := by
  induction ds generalizing t with
  | nil => exact ⟨[], t, [], Yields.pure [] t, .nil t⟩
  | cons d ds ih =>
    obtain ⟨d', t₁, errors₁, hYields₁, hHead⟩ := d.resolveIn_yields k t
    obtain ⟨ds', t₂, errors₂, hYields₂, hRest⟩ := ih t₁
    exact ⟨d' :: ds', t₂, errors₁ ++ errors₂, hYields₁.mapM_cons hYields₂, .cons hHead hRest⟩

/-- The fields of a struct open and close no scope. -/
theorem Outcomes.stack_eq {ds ds' : List VarDecl} (h : Outcomes k t ds t' ds' errors) :
    t'.stack = t.stack := by
  induction h with
  | nil t => rfl
  | cons hHead _ ih => rw [ih, hHead.stack_eq]

/-- Whether a name is repeated depends on the names alone, so an annotated body repeats the same
ones. -/
theorem resolveLocals_traced (seen : List String) (ds : List VarDecl) :
    Traced (k :: rest) (resolveLocals seen ds) (localParts seen) ds := by
  intro t ht
  induction ds generalizing t seen with
  | nil => exact ⟨[], t, [], Yields.pure [] t, .nil t, ht⟩
  | cons d ds ih =>
    by_cases hRepeats :
        (seen.contains d.id.name && (t.lookupLocal d.id.name).any Symbol.isFormal) = true
    · obtain ⟨ds', t', errors, hYields, hRun, hStack⟩ := ih (d.id.name :: seen) t ht
      refine ⟨d :: ds', t', _, resolveLocals_repeated hRepeats hYields, ?_, hStack⟩
      obtain ⟨hSeen, hFormal⟩ := Bool.and_eq_true_iff.mp hRepeats
      rw [localParts, localParts, if_pos hSeen]
      exact .cons (.repeated hFormal) hRun
    · obtain ⟨d', t₁, errors₁, hYields₁, hOutcome⟩ := VarDecl.resolve_yields ht d
      obtain ⟨ds', t₂, errors₂, hYields₂, hRun, hStack⟩ :=
        ih (d.id.name :: seen) t₁ (hOutcome.stack_eq.trans ht)
      refine ⟨d' :: ds', t₂, _, resolveLocals_resolved hRepeats hYields₁ hYields₂, ?_, hStack⟩
      rw [localParts, localParts, hOutcome.name_eq]
      refine .cons ?_ hRun
      -- the name may have been seen, if it is not that of a formal
      split
      · rename_i hSeen
        rw [hSeen, Bool.true_and, Bool.not_eq_true] at hRepeats
        exact .again ht hRepeats hOutcome
      · exact .var ht hOutcome

/-! ## Statements -/

/-- A block is traced from the opening of its scope to the closing. -/
theorem inBlock_traced (k : ScopeId) (rest : List ScopeId) (decls : List VarDecl)
    {stmts : List Stmt}
    (h : ∀ inner, Traced (inner :: k :: rest) (Stmt.resolveAll stmts) Stmt.partsAll stmts) :
    Traced (k :: rest) (inBlock decls (Stmt.resolveAll stmts))
      (fun b => nested (b.decls.map .var ++ Stmt.partsAll b.stmts)) ⟨decls, stmts⟩ :=
  .inScope fun inner => (varDecls_traced decls).pair (h inner) fun _ _ => rfl

mutual

/-- A statement is traced by its parts. -/
theorem Stmt.resolve_traced : ∀ (s : Stmt) (k : ScopeId) (rest : List ScopeId),
    Traced (k :: rest) s.resolve Stmt.parts s
  | .assign target value, _, _ => by
    rw [Stmt.resolve]
    exact (useLoc_traced target).pair (useExpr_traced value) fun _ _ => rfl
  | .increment target, _, _ | .decrement target, _, _ | .read target, _, _ => by
    rw [Stmt.resolve]
    exact (useLoc_traced target).bind_pure fun _ => rfl
  | .write value, _, _ | .ret (some value), _, _ => by
    rw [Stmt.resolve]
    exact (useExpr_traced value).bind_pure fun _ => rfl
  | .call callee args, _, _ => by
    rw [Stmt.resolve]
    exact (useIdent_traced callee).pair (useExprs_traced args) fun _ _ => rfl
  | .ret none, _, _ => by
    rw [Stmt.resolve]
    exact fun t ht => ⟨.ret none, t, [], Yields.pure _ t, .nil t, ht⟩
  | .ifThen cond ⟨decls, stmts⟩, k, rest | .loop cond ⟨decls, stmts⟩, k, rest => by
    rw [Stmt.resolve]
    exact (useExpr_traced cond).pair
      (inBlock_traced k rest decls fun inner => Stmt.resolveAll_traced stmts inner (k :: rest))
      fun _ _ => rfl
  | .ifElse cond ⟨decls, stmts⟩ ⟨elseDecls, elseStmts⟩, k, rest => by
    -- three parts, so `pair` does not serve
    have hBody := inBlock_traced k rest decls fun inner =>
      Stmt.resolveAll_traced stmts inner (k :: rest)
    have hElse := inBlock_traced k rest elseDecls fun inner =>
      Stmt.resolveAll_traced elseStmts inner (k :: rest)
    intro t ht
    obtain ⟨cond', t₁, errors₁, hYields₁, hRun₁, hStack₁⟩ := useExpr_traced cond t ht
    obtain ⟨body, t₂, errors₂, hYields₂, hRun₂, hStack₂⟩ := hBody t₁ hStack₁
    obtain ⟨otherwise, t₃, errors₃, hYields₃, hRun₃, hStack₃⟩ := hElse t₂ hStack₂
    refine ⟨.ifElse cond' body otherwise, t₃, errors₁ ++ (errors₂ ++ errors₃), ?_,
      hRun₁.append (hRun₂.append hRun₃), hStack₃⟩
    rw [Stmt.resolve]
    exact hYields₁.bind (hYields₂.bind (hYields₃.bind_pure (Stmt.ifElse cond' body)))

theorem Stmt.resolveAll_traced : ∀ (ss : List Stmt) (k : ScopeId) (rest : List ScopeId),
    Traced (k :: rest) (Stmt.resolveAll ss) Stmt.partsAll ss
  | [], _, _ => fun t ht => ⟨[], t, [], Yields.pure [] t, .nil t, ht⟩
  | s :: ss, k, rest => by
    rw [Stmt.resolveAll]
    exact (Stmt.resolve_traced s k rest).pair (Stmt.resolveAll_traced ss k rest) fun _ _ => rfl

end

/-! ## Programs -/

/-- A function is traced by its parts. -/
theorem FuncDecl.resolve_traced (f : FuncDecl) : Traced [k] f.resolve FuncDecl.parts f := by
  intro t ht
  obtain ⟨id', t₁, errors₁, hYields₁, hDeclares⟩ :=
    declareHere_yields ht f.id (.function f.result.name f.paramTypes)
  have hStack₁ : t₁.stack = [k] := hDeclares.stack_eq.trans ht
  -- the formals and the body, in a scope of their own
  have hPushed : t₁.push.2.stack = t₁.store.length :: [k] := by rw [push_stack, hStack₁]
  obtain ⟨formals, t₂, errors₂, hYields₂, hRun₂, hStack₂⟩ := formals_traced f.formals _ hPushed
  obtain ⟨decls, t₃, errors₃, hYields₃, hRun₃, hStack₃⟩ :=
    resolveLocals_traced [] f.body.decls t₂ hStack₂
  obtain ⟨stmts, t₄, errors₄, hYields₄, hRun₄, hStack₄⟩ :=
    Stmt.resolveAll_traced f.body.stmts _ _ t₃ hStack₃
  refine ⟨⟨f.result, id', formals, ⟨decls, stmts⟩⟩, { t₄ with stack := t₁.stack },
    errors₁ ++ (errors₂ ++ (errors₃ ++ errors₄)), ?_, ?_, hStack₁⟩
  · exact FuncDecl.resolve_yields hYields₁ hYields₂ hYields₃ hYields₄ (hStack₄.trans hPushed.symm)
  -- the types in the signature are those of the formals
  have hTypes : FuncDecl.paramTypes ⟨f.result, id', formals, ⟨decls, stmts⟩⟩ = f.paramTypes := by
    have h := congrArg (List.map TypeRef.name) hRun₂.formal_types
    rwa [List.map_map, List.map_map] at h
  rw [FuncDecl.parts, FuncDecl.parts, hTypes, hStack₁]
  exact .cons (.func ht hDeclares) ((hRun₂.append (hRun₃.append hRun₄)).nested hStack₄)

theorem StructDecl.resolve_traced (s : StructDecl) :
    Traced [k] s.resolve (fun s => [.struct s]) s := by
  intro t ht
  -- the scope of the fields gets its number before the name is declared
  obtain ⟨id', t₁, errors₁, hYields₁, hDeclares⟩ :=
    declareHere_yields (t := t.newScope.2) ht s.id (.structDecl t.store.length)
  obtain ⟨fields, t₂, errors₂, hYields₂, hFields⟩ := fields_yields t.store.length s.fields t₁
  refine ⟨⟨id', fields⟩, t₂, errors₁ ++ errors₂, StructDecl.resolve_yields hYields₁ hYields₂,
    .single (.struct ht hDeclares hFields), ?_⟩
  rw [hFields.stack_eq, hDeclares.stack_eq]
  exact ht

/-- A declaration, whatever its kind. -/
theorem Decl.resolve_traced (d : Decl) : Traced [k] d.resolve Decl.parts d := by
  intro t ht
  cases d with
  | var d =>
    obtain ⟨d', t', errors, hYields, hRun, hStack⟩ := d.resolve_traced t ht
    exact ⟨.var d', t', errors, hYields.map Decl.var, hRun, hStack⟩
  | func f =>
    obtain ⟨f', t', errors, hYields, hRun, hStack⟩ := f.resolve_traced t ht
    exact ⟨.func f', t', errors, hYields.map Decl.func, hRun, hStack⟩
  | struct s =>
    obtain ⟨s', t', errors, hYields, hRun, hStack⟩ := s.resolve_traced t ht
    exact ⟨.struct s', t', errors, hYields.map Decl.struct, hRun, hStack⟩

/-- An analysis does not fail, and it is a run over the parts of the program from an empty global
scope on. -/
theorem analyze_runs (a : Analyzer) (p : Program) :
    ∃ q b, a.analyze p = .ok (q, b) ∧
      Run a.table.restart p.parts b.table q.parts b.errors := by
  obtain ⟨decls, t, errors, hYields, hRun, -⟩ :=
    Traced.mapM Decl.resolve_traced p.decls a.table.restart (restart_stack a.table)
  obtain ⟨b, hAnalyze, rfl, rfl⟩ := analyze_of_yields hYields
  exact ⟨⟨decls⟩, b, hAnalyze, hRun⟩

end NameResolution
