import NameResolution.Proofs.Analysis.Retouch
import NameResolution.Proofs.Analysis.Shift
import NameResolution.Proofs.Analysis.Yields

/-!
# Simulation — an analysis of an annotated tree against one of the bare tree

A walk never reads a symbol that a tree carries already, and it never depends on the numbers of its
scopes. So an analysis of a tree with symbols of earlier ones does what another analyzer does with
the same tree when all symbols are taken off. The answers differ in two ways: scope numbers are
shifted, and a declaration that is rejected keeps the symbol that it had.

* `Mimics` — two parts of the walk that do the same under shifted tables.
* `Stmt.Agrees`, `DeclAgrees` — what their answers have in common.
* `analyze_mimics` — whole analyses.
-/

namespace NameResolution

open Analysis SymbolTable

variable {α β : Type} {n : Nat} {g k : ScopeId} {t u : SymbolTable}

/-! ## Parts that do the same -/

/-- From the tables `t` and `u`, both parts succeed with the same errors; their answers agree, the
table of the first is a shifted one of the second again, and the second has its scopes open. -/
def MimicsAt (n : Nat) (g : ScopeId) (t u : SymbolTable) (part part₀ : Resolve α)
    (agree : α → α → Prop) : Prop :=
  ∃ x t' x₀ u' errors, Yields part t x t' errors ∧ Yields part₀ u x₀ u' errors ∧ agree x x₀ ∧
    Shifted n g t' u' ∧ u'.stack = u.stack

/-- Under a shifted table, the one part does what the other does. -/
def Mimics (n : Nat) (g : ScopeId) (part part₀ : Resolve α) (agree : α → α → Prop) : Prop :=
  ∀ t u, Shifted n g t u → MimicsAt n g t u part part₀ agree

variable {part part₀ : Resolve α} {next next₀ : α → Resolve β} {agree : α → α → Prop}
  {agree' : β → β → Prop}

/-- Answers that agree mimic each other. -/
theorem Mimics.pure {x x₀ : α} (hAgree : agree x x₀) :
    Mimics n g (Pure.pure x) (Pure.pure x₀) agree :=
  fun t u h => ⟨x, t, x₀, u, [], Yields.pure x t, Yields.pure x₀ u, hAgree, h, rfl⟩

/-- Two parts in a row mimic two others from the given tables on. -/
theorem MimicsAt.bind (h : MimicsAt n g t u part part₀ agree)
    (hNext : ∀ x x₀, agree x x₀ → Mimics n g (next x) (next₀ x₀) agree') :
    MimicsAt n g t u (part >>= next) (part₀ >>= next₀) agree' := by
  obtain ⟨x, t₁, x₀, u₁, errors₁, hYields₁, hYields₁', hAgree, hShifted₁, hStack₁⟩ := h
  obtain ⟨y, t₂, y₀, u₂, errors₂, hYields₂, hYields₂', hAgree', hShifted₂, hStack₂⟩ :=
    hNext x x₀ hAgree t₁ u₁ hShifted₁
  exact ⟨y, t₂, y₀, u₂, errors₁ ++ errors₂, hYields₁.bind hYields₂, hYields₁'.bind hYields₂',
    hAgree', hShifted₂, hStack₂.trans hStack₁⟩

/-- Two parts in a row mimic two others. -/
theorem Mimics.bind (h : Mimics n g part part₀ agree)
    (hNext : ∀ x x₀, agree x x₀ → Mimics n g (next x) (next₀ x₀) agree') :
    Mimics n g (part >>= next) (part₀ >>= next₀) agree' :=
  fun t u hShifted => (h t u hShifted).bind hNext

/-- A part whose answer is only wrapped afterwards. -/
theorem Mimics.bind_pure {make make₀ : α → β} (h : Mimics n g part part₀ agree)
    (hMake : ∀ x x₀, agree x x₀ → agree' (make x) (make₀ x₀)) :
    Mimics n g (part >>= fun x => Pure.pure (make x)) (part₀ >>= fun x => Pure.pure (make₀ x))
      agree' :=
  h.bind fun x x₀ hAgree => .pure (hMake x x₀ hAgree)

/-- What is made of answers that agree has to agree. -/
theorem Mimics.map {make make₀ : α → β} (h : Mimics n g part part₀ agree)
    (hMake : ∀ x x₀, agree x x₀ → agree' (make x) (make₀ x₀)) :
    Mimics n g (make <$> part) (make₀ <$> part₀) agree' := by
  rw [map_eq_pure_bind, map_eq_pure_bind]
  exact h.bind_pure hMake

/-- The same part of the walk for each member of a list. -/
theorem Mimics.mapM {step step₀ : α → Resolve β} {bare : α → α}
    (h : ∀ x, Mimics n g (step x) (step₀ (bare x)) agree') (xs : List α) :
    Mimics n g (xs.mapM step) ((xs.map bare).mapM step₀) (List.Forall₂ agree') := by
  induction xs with
  | nil => exact .pure .nil
  | cons x xs ih =>
    rw [List.map_cons, List.mapM_cons, List.mapM_cons]
    exact (h x).bind fun y y₀ hHead => ih.bind_pure fun ys ys₀ hRest => .cons hHead hRest

/-- Both runs look at their own table. -/
theorem MimicsAt.getTable {next next₀ : SymbolTable → Resolve α}
    (h : MimicsAt n g t u (next t) (next₀ u) agree) :
    MimicsAt n g t u (Analysis.getTable >>= next) (Analysis.getTable >>= next₀) agree := by
  obtain ⟨x, t', x₀, u', errors, hYields, hYields', hRest⟩ := h
  exact ⟨x, t', x₀, u', errors, (getTable_yields t).bind_silent hYields,
    (getTable_yields u).bind_silent hYields', hRest⟩

theorem report_mimics (errors : List Diagnostic) :
    Mimics n g (report errors) (report errors) fun _ _ => True :=
  fun t u h => ⟨(), t, (), u, errors, report_yields errors t, report_yields errors u, trivial, h,
    rfl⟩

/-- A part that reports, and leaves its answer as it is. -/
theorem report_then_mimics (errors : List Diagnostic) {x x₀ : α} (hAgree : agree x x₀) :
    Mimics n g (report errors >>= fun _ => Pure.pure x) (report errors >>= fun _ => Pure.pure x₀)
      agree :=
  (report_mimics errors).bind fun _ _ _ => .pure hAgree

/-- A part in a scope of its own. -/
theorem Mimics.inScope (h : Mimics n g part part₀ agree) :
    Mimics n g (inScope part) (inScope part₀) agree := by
  intro t u hShifted
  obtain ⟨x, t', x₀, u', errors, hYields, hYields', hAgree, hShifted', hStack⟩ :=
    h t.push.2 u.push.2 hShifted.push
  have hStack' : t'.stack = t.push.2.stack := by
    rw [hShifted'.stack, hStack, hShifted.push.stack]
  refine ⟨x, _, x₀, _, errors, inScope_yields hYields hStack', inScope_yields hYields' hStack,
    hAgree, hShifted'.with_stack hShifted.stack hShifted.opened fun k hk => ?_, rfl⟩
  -- the scopes that were open still are
  exact hShifted'.made k (hStack ▸ List.mem_cons_of_mem _ hk)

/-! ## Uses -/

/-- A name is used as it is without its symbol. -/
theorem useIdent_mimics (id : Ident) :
    Mimics n g (useIdent id) (useIdent id.bare) fun x x₀ => x = x₀.shift n := by
  intro t u h
  refine ⟨_, t, _, u, _, useIdent_yields id t, ?_, id.annotate_shift h, h, rfl⟩
  rw [Ident.diagnose_shift h]
  exact useIdent_yields id.bare u

/-- A location is used as it is without its symbols. -/
theorem useLoc_mimics (l : Loc) :
    Mimics n g (useLoc l) (useLoc (l.relabel Ident.bare)) fun x x₀ =>
      x = x₀.relabel (Ident.shift n) := by
  intro t u h
  refine ⟨_, t, _, u, _, useLoc_yields l t, ?_, l.annotate_shift h, h, rfl⟩
  rw [Loc.diagnose_shift h]
  exact useLoc_yields _ u

/-- An expression is used as it is without its symbols. -/
theorem useExpr_mimics (e : Expr) :
    Mimics n g (useExpr e) (useExpr (e.relabel id Ident.bare)) fun x x₀ =>
      x = x₀.relabel id (Ident.shift n) := by
  intro t u h
  refine ⟨_, t, _, u, _, useExpr_yields e t, ?_, e.annotate_shift h, h, rfl⟩
  rw [Expr.diagnose_shift h]
  exact useExpr_yields _ u

/-- Expressions are used as they are without their symbols. -/
theorem useExprs_mimics (es : List Expr) :
    Mimics n g (useExprs es) (useExprs (Expr.relabelAll id Ident.bare es)) fun xs xs₀ =>
      xs = Expr.relabelAll id (Ident.shift n) xs₀ := by
  intro t u h
  refine ⟨_, t, _, u, _, useExprs_yields es t, ?_, Expr.annotateAll_shift h es, h, rfl⟩
  rw [Expr.diagnoseAll_shift h]
  exact useExprs_yields _ u

/-! ## Declared names -/

/-- The names are the same but for their symbols, and what the second one carries, the first one
carries shifted. -/
structure Ident.Agrees (n : Nat) (id id₀ : Ident) : Prop where
  bare : id.bare = id₀.bare
  symbol : ∀ symbol, id₀.symbol? = some symbol → id.symbol? = some (symbol.shift n)

/-- A name that gets no symbol agrees with the bare one. -/
theorem Ident.Agrees.unbound (id : Ident) : id.Agrees n id.bare where
  bare := rfl
  symbol _ h := by cases h

/-- A name that gets the shifted symbol agrees with the other. -/
theorem Ident.Agrees.bound (id : Ident) (symbol : Symbol) :
    (id.bind (symbol.shift n)).Agrees n (id.bare.bind symbol) where
  bare := rfl
  symbol _ h := by
    obtain rfl := Option.some.inj h
    rfl

/-- The innermost scopes have shifted numbers. -/
theorem currentScope_mimics :
    Mimics n g currentScope currentScope fun k k₀ => k = k₀ + n ∧ g ≤ k₀ := by
  intro t u h
  obtain ⟨k, rest, hStack⟩ := List.exists_cons_of_ne_nil h.opened
  have hStack' : t.stack = (k + n) :: rest.map (· + n) := by
    rw [h.stack, hStack, List.map_cons]
  exact ⟨k + n, t, k, u, [], currentScope_yields hStack', currentScope_yields hStack,
    ⟨rfl, (h.made k (hStack ▸ List.mem_cons_self)).1⟩, h, rfl⟩

/-- New scopes have shifted numbers. -/
theorem newScope_mimics :
    Mimics n g newScope newScope fun k k₀ => k = k₀ + n ∧ g ≤ k₀ :=
  fun t u h => ⟨_, _, _, _, [], newScope_yields t, newScope_yields u, ⟨h.length, h.base_le⟩,
    h.newScope, rfl⟩

/-- Both declarations are accepted or both are refused. -/
theorem declare_mimics (hk : g ≤ k) (id : Ident) (meaning : Meaning)
    (hFields : ∀ inside, meaning.fields? = some inside → g ≤ inside) :
    Mimics n g (declare (k + n) id (meaning.shift n)) (declare k id.bare meaning)
      (Ident.Agrees n) := by
  intro t u h
  refine MimicsAt.getTable ?_
  have hSymbol : (⟨.declared (k + n) id.name, meaning.shift n⟩ : Symbol)
      = Symbol.shift n ⟨.declared k id.name, meaning⟩ := rfl
  have hName : id.bare.name = id.name := rfl
  simp only [hSymbol, hName]
  -- the name is taken in both scopes or in none
  cases hDeclared : u.declareIn k id.name ⟨.declared k id.name, meaning⟩ with
  | none =>
    rw [h.declareIn_none hk hDeclared]
    exact report_then_mimics _ (Ident.Agrees.unbound id) t u h
  | some u' =>
    obtain ⟨t', hDeclared', hShifted⟩ := h.declareIn_some hk hFields hDeclared
    rw [hDeclared']
    refine ⟨_, t', _, u', [], (setTable_yields t t').bind_silent (Yields.pure _ t'),
      (setTable_yields u u').bind_silent (Yields.pure _ u'), ?_, hShifted,
      (declareIn_eq_some hDeclared).2.1⟩
    exact Ident.Agrees.bound id ⟨.declared k id.name, meaning⟩

theorem declareHere_mimics (id : Ident) (meaning : Meaning)
    (hFields : ∀ inside, meaning.fields? = some inside → g ≤ inside) :
    Mimics n g (declareHere id (meaning.shift n)) (declareHere id.bare meaning)
      (Ident.Agrees n) := by
  refine currentScope_mimics.bind ?_
  rintro _ k ⟨rfl, hk⟩
  exact declare_mimics hk id meaning hFields

/-! ## Variables and formals -/

/-- The declarations are the same but for their symbols, and their names agree. -/
structure VarDecl.Agrees (n : Nat) (d d₀ : VarDecl) : Prop where
  bare : d.relabel Ident.bare = d₀.relabel Ident.bare
  id : d.id.Agrees n d₀.id

/-- Taking the symbols away twice is taking them away. -/
theorem TypeRef.relabel_bare (type : TypeRef) :
    (type.relabel Ident.bare).relabel Ident.bare = type.relabel Ident.bare := by
  cases type <;> rfl

/-- A declaration that is left as it was. -/
theorem VarDecl.Agrees.same (d : VarDecl) : d.Agrees n (d.relabel Ident.bare) where
  bare := by
    rw [relabel, relabel, TypeRef.relabel_bare]
    rfl
  id := .unbound d.id

/-- Variables agree if their types and names do. -/
theorem VarDecl.Agrees.of_parts {type type₀ : TypeRef} {id id₀ : Ident} (isField : Bool)
    (hType : type.relabel Ident.bare = type₀.relabel Ident.bare) (hId : id.Agrees n id₀) :
    VarDecl.Agrees n ⟨type, id, isField⟩ ⟨type₀, id₀, isField⟩ where
  bare := by rw [relabel, relabel, hType, hId.bare]
  id := hId

/-- A variable or a field is declared as it is without its symbols. -/
theorem VarDecl.resolveIn_mimics (hk : g ≤ k) (d : VarDecl) :
    Mimics n g (d.resolveIn (k + n)) ((d.relabel Ident.bare).resolveIn k) (VarDecl.Agrees n) := by
  intro t u h
  refine MimicsAt.getTable ?_
  -- the conditions come out the same: a formal of the name, the type, a struct of its name
  have hFormal : ((t.scope (k + n)).lookup d.id.name).filter Symbol.isFormal =
      (((u.scope k).lookup d.id.name).filter Symbol.isFormal).map (Symbol.shift n) := by
    rw [h.scope_lookup hk, Option.filter_map]
    congr 2
    funext symbol
    exact symbol.isFormal_shift
  obtain ⟨type, id, isField⟩ := d
  dsimp only [VarDecl.relabel, Ident.bare] at hFormal ⊢
  rw [hFormal]
  cases ((u.scope k).lookup id.name).filter Symbol.isFormal with
  | some formal =>
    exact Mimics.pure (.of_parts isField (TypeRef.relabel_bare type).symm (.bound id formal)) t u h
  | none =>
    cases type with
    | void => exact report_then_mimics _ (.same ⟨.void, id, isField⟩) t u h
    | struct structId =>
      dsimp only [Option.map_none, TypeRef.relabel, Ident.bare]
      rw [h.lookupStruct_eq]
      cases u.lookupStruct structId.name with
      | none => exact report_then_mimics _ (.same ⟨.struct structId, id, isField⟩) t u h
      | some struct =>
        refine ((declare_mimics hk id (.structVar structId.name) ?_).bind_pure
          fun id' id₀ hId => ?_) t u h
        · rintro _ ⟨⟩
        · exact .of_parts isField rfl hId
    | boolean | integer =>
      refine ((declare_mimics hk id (.regular _) ?_).bind_pure
        fun id' id₀ hId => ?_) t u h
      · rintro _ ⟨⟩
      · exact .of_parts isField rfl hId

/-- A variable is declared as it is without its symbols. -/
theorem VarDecl.resolve_mimics (d : VarDecl) :
    Mimics n g d.resolve (d.relabel Ident.bare).resolve (VarDecl.Agrees n) := by
  refine currentScope_mimics.bind ?_
  rintro _ k ⟨rfl, hk⟩
  exact d.resolveIn_mimics hk

/-- Variables that agree are the same without their symbols. -/
theorem varDecls_bare {ds ds₀ : List VarDecl} (h : List.Forall₂ (VarDecl.Agrees n) ds ds₀) :
    ds.map (VarDecl.relabel Ident.bare) = ds₀.map (VarDecl.relabel Ident.bare) := by
  induction h with
  | nil => rfl
  | cons hHead _ ih => rw [List.map_cons, List.map_cons, hHead.bare, ih]

/-- The name of a type does not depend on its symbol. -/
theorem TypeRef.name_bare (type : TypeRef) : (type.relabel Ident.bare).name = type.name := by
  cases type <;> rfl

/-- A formal is declared as it is without its symbol. -/
theorem Formal.resolve_mimics (f : Formal) :
    Mimics n g f.resolve (f.relabel Ident.bare).resolve fun x x₀ =>
      x.relabel Ident.bare = x₀.relabel Ident.bare := by
  have hName := declareHere_mimics (n := n) (g := g) f.id (.formal f.type.name)
    (by rintro _ ⟨⟩)
  unfold Formal.resolve Formal.relabel
  rw [TypeRef.name_bare]
  refine hName.bind_pure fun id id₀ hId => ?_
  rw [hId.bare, TypeRef.relabel_bare]

/-- The formals of a function are declared one by one. -/
theorem formals_mimic (fs : List Formal) :
    Mimics n g (fs.mapM Formal.resolve) ((fs.map (Formal.relabel Ident.bare)).mapM Formal.resolve)
      fun xs xs₀ => xs.map (Formal.relabel Ident.bare) = xs₀.map (Formal.relabel Ident.bare) := by
  induction fs with
  | nil => exact .pure rfl
  | cons f fs ih =>
    rw [List.map_cons, List.mapM_cons, List.mapM_cons]
    refine f.resolve_mimics.bind fun x x₀ hHead => ih.bind_pure fun xs xs₀ hRest => ?_
    rw [List.map_cons, List.map_cons, hHead, hRest]

/-! ## Statements -/

/-- The statements are the same but for the symbols in declarations and the scope numbers in those
of uses. -/
def Stmt.Agrees (n : Nat) (s s₀ : Stmt) : Prop :=
  s.retouch Ident.bare id = s₀.retouch Ident.bare (Ident.shift n)

def Stmt.AllAgree (n : Nat) (ss ss₀ : List Stmt) : Prop :=
  Stmt.retouchAll Ident.bare id ss = Stmt.retouchAll Ident.bare (Ident.shift n) ss₀

def Block.Agrees (n : Nat) (b b₀ : Block Stmt) : Prop :=
  b.retouch Ident.bare id = b₀.retouch Ident.bare (Ident.shift n)

/-- Blocks agree if their declarations and their statements do. -/
theorem Block.Agrees.of_parts {decls decls₀ : List VarDecl} {stmts stmts₀ : List Stmt}
    (hDecls : List.Forall₂ (VarDecl.Agrees n) decls decls₀)
    (hStmts : Stmt.AllAgree n stmts stmts₀) :
    Block.Agrees n ⟨decls, stmts⟩ ⟨decls₀, stmts₀⟩ := by
  rw [Agrees, retouch, retouch, varDecls_bare hDecls, hStmts]

/-- A block is walked through as it is without its symbols. -/
theorem inBlock_mimics (decls : List VarDecl) {stmts stmts₀ : Resolve (List Stmt)}
    (h : Mimics n g stmts stmts₀ (Stmt.AllAgree n)) :
    Mimics n g (inBlock decls stmts) (inBlock (decls.map (VarDecl.relabel Ident.bare)) stmts₀)
      (Block.Agrees n) :=
  .inScope <| (Mimics.mapM VarDecl.resolve_mimics decls).bind fun _ _ hDecls =>
    h.bind_pure fun _ _ hStmts => .of_parts hDecls hStmts

mutual

/-- A statement is walked through as it is without its symbols. -/
theorem Stmt.resolve_mimics : (s : Stmt) →
    Mimics n g s.resolve (s.relabel id Ident.bare).resolve (Stmt.Agrees n)
  -- both runs use the parts in the same order, and what they make of each part agrees
  | .assign target value => by
    rw [Stmt.relabel, Stmt.resolve, Stmt.resolve]
    refine (useLoc_mimics target).bind fun x x₀ hTarget => ?_
    refine (useExpr_mimics value).bind_pure fun y y₀ hValue => ?_
    rw [hTarget, hValue]
    simp [Stmt.Agrees, Stmt.retouch]
  | .increment target | .decrement target | .read target => by
    rw [Stmt.relabel, Stmt.resolve, Stmt.resolve]
    refine (useLoc_mimics target).bind_pure fun x x₀ hTarget => ?_
    rw [hTarget]
    simp [Stmt.Agrees, Stmt.retouch]
  | .write value | .ret (some value) => by
    rw [Stmt.relabel, Stmt.resolve, Stmt.resolve]
    refine (useExpr_mimics value).bind_pure fun x x₀ hValue => ?_
    rw [hValue]
    simp [Stmt.Agrees, Stmt.retouch]
  | .call callee args => by
    rw [Stmt.relabel, Stmt.resolve, Stmt.resolve]
    refine (useIdent_mimics callee).bind fun x x₀ hCallee => ?_
    refine (useExprs_mimics args).bind_pure fun y y₀ hArgs => ?_
    rw [hCallee, hArgs]
    simp [Stmt.Agrees, Stmt.retouch]
  | .ret none => by
    rw [Stmt.relabel, Stmt.resolve]
    exact .pure rfl
  | .ifThen cond ⟨decls, stmts⟩ => by
    rw [Stmt.relabel, Stmt.resolve, Stmt.resolve]
    refine (useExpr_mimics cond).bind fun x x₀ hCond => ?_
    refine (inBlock_mimics decls (Stmt.resolveAll_mimics stmts)).bind_pure fun b b₀ hBody => ?_
    -- literals and positions are the same in both trees, so relabelling leaves the condition alone
    rw [Stmt.Agrees, Stmt.retouch_ifThen, Stmt.retouch_ifThen, hCond, hBody, Expr.relabel_id]
  | .ifElse cond ⟨decls, stmts⟩ ⟨elseDecls, elseStmts⟩ => by
    rw [Stmt.relabel, Stmt.resolve, Stmt.resolve]
    refine (useExpr_mimics cond).bind fun x x₀ hCond => ?_
    refine (inBlock_mimics decls (Stmt.resolveAll_mimics stmts)).bind fun b b₀ hBody => ?_
    refine (inBlock_mimics elseDecls (Stmt.resolveAll_mimics elseStmts)).bind_pure
      fun c c₀ hElse => ?_
    rw [Stmt.Agrees, Stmt.retouch_ifElse, Stmt.retouch_ifElse, hCond, hBody, hElse,
      Expr.relabel_id]
  | .loop cond ⟨decls, stmts⟩ => by
    rw [Stmt.relabel, Stmt.resolve, Stmt.resolve]
    refine (useExpr_mimics cond).bind fun x x₀ hCond => ?_
    refine (inBlock_mimics decls (Stmt.resolveAll_mimics stmts)).bind_pure fun b b₀ hBody => ?_
    rw [Stmt.Agrees, Stmt.retouch_loop, Stmt.retouch_loop, hCond, hBody, Expr.relabel_id]

theorem Stmt.resolveAll_mimics : (ss : List Stmt) →
    Mimics n g (Stmt.resolveAll ss) (Stmt.resolveAll (Stmt.relabelAll id Ident.bare ss))
      (Stmt.AllAgree n)
  | [] => .pure rfl
  | s :: ss => by
    rw [Stmt.relabelAll, Stmt.resolveAll, Stmt.resolveAll]
    refine (Stmt.resolve_mimics s).bind fun x x₀ hHead => ?_
    refine (Stmt.resolveAll_mimics ss).bind_pure fun xs xs₀ hRest => ?_
    rw [Stmt.AllAgree, Stmt.retouchAll, Stmt.retouchAll]
    exact congr (congrArg List.cons hHead) hRest

end

/-! ## Functions and structs -/

/-- The variables of a function body are declared as they are without their symbols. -/
theorem resolveLocals_mimics (seen : List String) (ds : List VarDecl) :
    Mimics n g (resolveLocals seen ds) (resolveLocals seen (ds.map (VarDecl.relabel Ident.bare)))
      (List.Forall₂ (VarDecl.Agrees n)) := by
  induction ds generalizing seen with
  | nil => exact .pure .nil
  | cons d ds ih =>
    intro t u h
    rw [List.map_cons, resolveLocals, resolveLocals]
    refine MimicsAt.getTable ?_
    -- the name is that of a formal in both scopes or in none
    have hFormal : (t.lookupLocal d.id.name).any Symbol.isFormal =
        (u.lookupLocal d.id.name).any Symbol.isFormal := by
      rw [h.lookupLocal_eq]
      cases u.lookupLocal d.id.name with
      | none => rfl
      | some symbol => exact symbol.isFormal_shift
    dsimp only [VarDecl.relabel, Ident.bare]
    rw [hFormal]
    have hRest := ih (d.id.name :: seen)
    split
    · refine (report_mimics _).bind (fun _ _ _ => ?_) t u h
      exact (Mimics.pure (.same d)).bind fun x x₀ hHead =>
        hRest.bind_pure fun xs xs₀ hTail => .cons hHead hTail
    · exact (d.resolve_mimics.bind fun x x₀ hHead =>
        hRest.bind_pure fun xs xs₀ hTail => .cons hHead hTail) t u h

/-- The body of a function is walked through as it is without its symbols. -/
theorem resolveBody_mimics (body : Block Stmt) :
    Mimics n g (resolveBody body) (resolveBody (body.relabel id Ident.bare)) (Block.Agrees n) :=
  (resolveLocals_mimics [] body.decls).bind fun _ _ hDecls =>
    (Stmt.resolveAll_mimics body.stmts).bind_pure fun _ _ hStmts => .of_parts hDecls hStmts

/-- The declarations are the same but for the symbols in declarations and the scope numbers in
those of uses, and their names agree. -/
structure DeclAgrees (n : Nat) (d d₀ : Decl) : Prop where
  same : d.retouch Ident.bare id = d₀.retouch Ident.bare (Ident.shift n)
  name : d.id.Agrees n d₀.id

/-- The types of the parameters are shown without symbols. -/
theorem paramTypes_bare (f : FuncDecl) :
    (f.relabel id Ident.bare).paramTypes = f.paramTypes := by
  rw [FuncDecl.paramTypes, FuncDecl.paramTypes, FuncDecl.relabel, List.map_map]
  exact List.map_congr_left fun formal _ => formal.type.name_bare

/-- A function is walked through as it is without its symbols. -/
theorem funcDecl_mimics (f : FuncDecl) :
    Mimics n g f.resolve (f.relabel id Ident.bare).resolve fun x x₀ =>
      DeclAgrees n (.func x) (.func x₀) := by
  have hName := declareHere_mimics (n := n) (g := g) f.id (.function f.result.name f.paramTypes)
    (by rintro _ ⟨⟩)
  unfold FuncDecl.resolve
  -- the text of the signature is the same, so both names get the same meaning
  rw [paramTypes_bare]
  dsimp only [FuncDecl.relabel]
  rw [TypeRef.name_bare]
  refine hName.bind fun id id₀ hId => .inScope ?_
  refine (formals_mimic f.formals).bind fun formals formals₀ hFormals => ?_
  refine (resolveBody_mimics f.body).bind_pure fun body body₀ hBody => ⟨?_, hId⟩
  simp only [Decl.retouch, FuncDecl.retouch, TypeRef.relabel_bare, hId.bare, hFormals]
  rw [hBody]

/-- A struct is walked through as it is without its symbols. -/
theorem structDecl_mimics (s : StructDecl) :
    Mimics n g s.resolve (s.relabel Ident.bare).resolve fun x x₀ =>
      DeclAgrees n (.struct x) (.struct x₀) := by
  refine newScope_mimics.bind ?_
  rintro _ k ⟨rfl, hk⟩
  -- the field table of the struct is one of the new scopes
  have hInside : ∀ inside, (Meaning.structDecl k).fields? = some inside → g ≤ inside := by
    rintro _ ⟨⟩
    exact hk
  refine (declareHere_mimics s.id (.structDecl k) hInside).bind fun id id₀ hId => ?_
  refine (Mimics.mapM (fun d => d.resolveIn_mimics hk) s.fields).bind_pure
    fun fields fields₀ hFields => ⟨?_, hId⟩
  simp only [Decl.retouch, StructDecl.relabel, hId.bare, varDecls_bare hFields]

/-! ## Programs -/

/-- A declaration is walked through as it is without its symbols. -/
theorem decl_mimics (d : Decl) :
    Mimics n g d.resolve (d.relabel id Ident.bare).resolve (DeclAgrees n) := by
  cases d with
  | var d =>
    refine d.resolve_mimics.map fun x x₀ hAgrees => ⟨?_, hAgrees.id⟩
    exact congrArg Decl.var hAgrees.bare
  | func f => exact (funcDecl_mimics f).map fun x x₀ hAgrees => hAgrees
  | struct s => exact (structDecl_mimics s).map fun x x₀ hAgrees => hAgrees

/-- An analysis does what one of the bare program does that makes its scopes from another number
on. -/
theorem analyze_mimics {a a₀ : Analyzer}
    (hLength : a.table.store.length = a₀.table.store.length + n) (p : Program) :
    ∃ q b q₀ b₀, a.analyze p = .ok (q, b) ∧ a₀.analyze p.bare = .ok (q₀, b₀) ∧
      b.errors = b₀.errors ∧ Shifted n a₀.table.store.length b.table b₀.table ∧
      List.Forall₂ (DeclAgrees n) q.decls q₀.decls := by
  obtain ⟨decls, t, decls₀, t₀, errors, hYields, hYields₀, hAgree, hShifted, -⟩ :=
    Mimics.mapM decl_mimics p.decls _ _ (Shifted.restart hLength)
  obtain ⟨b, hAnalyze, rfl, hErrors⟩ := analyze_of_yields hYields
  obtain ⟨b₀, hAnalyze₀, rfl, hErrors₀⟩ := analyze_of_yields (p := p.bare) hYields₀
  exact ⟨_, b, _, b₀, hAnalyze, hAnalyze₀, hErrors.trans hErrors₀.symm, hShifted, hAgree⟩

end NameResolution
