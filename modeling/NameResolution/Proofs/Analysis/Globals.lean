import NameResolution.Proofs.Analysis.Kinds
import NameResolution.Proofs.Analysis.Simulation

/-!
# The scope stack — what is open during an analysis, and what is left at its end

Expressions and statements leave the open scopes as they found them, and a declaration adds at most
its own binding. So in the end only the global scope is open, and it holds the declarations of the
top level that were accepted, in the order of the text.

* `Restores`, `AddsOne` — what parts of the walk do to the open scopes.
* `Records` — a declaration binds its name to the symbol that is put on it.
* `scopes_are_disciplined` — the walk of every construct, and a whole analysis.
-/

namespace NameResolution

open Analysis SymbolTable

variable {α : Type} {part : Resolve α} {t t' : SymbolTable} {k : ScopeId} {rest : List ScopeId}
  {errors : List Diagnostic}

/-! ## Open scopes after a part of the walk -/

/-- The part succeeds, and leaves all open scopes as they were. -/
def Restores (t : SymbolTable) (part : Resolve α) : Prop :=
  ∃ x t' errors, Yields part t x t' errors ∧ t'.stack = t.stack ∧ t'.openScopes = t.openScopes

/-- The part succeeds, and adds at most one binding to the open scopes, at the end of the innermost
one. -/
def AddsOne (t : SymbolTable) (part : Resolve α) : Prop :=
  ∃ x t' errors, Yields part t x t' errors ∧ t'.stack = t.stack ∧
    ∃ innermost outer, t.openScopes = innermost :: outer ∧
      (t'.openScopes = innermost :: outer ∨
        ∃ name symbol, t'.openScopes = innermost.bind name symbol :: outer)

/-- What leaves the scopes as they were restores any sound table. -/
theorem Leaves.restores (h : Leaves part) (hSound : t.Sound) : Restores t part := by
  obtain ⟨x, t', errors, hYields, hFrame⟩ := h t hSound
  exact ⟨x, t', errors, hYields, hFrame.stack, hFrame.openScopes_eq hSound⟩

/-- What adds at most one binding does so from any sound table. -/
theorem Enters.addsOne (h : Enters part) (hSound : t.Sound) : AddsOne t part := by
  obtain ⟨k, rest, hStack⟩ := hSound.exists_innermost
  obtain ⟨x, t', errors, hYields, hAdds⟩ := h t k rest hSound hStack
  exact ⟨x, t', errors, hYields, hAdds.stack, hAdds.openScopes_eq hSound hStack⟩

/-! ## Accepted declarations -/

/-- The name with the symbol that it carries. -/
def Ident.binding? (id : Ident) : Option (String × Symbol) :=
  id.symbol?.map fun symbol => (id.name, symbol)

/-- The binding that a declaration of the top level has made. -/
def Decl.binding? (d : Decl) : Option (String × Symbol) :=
  d.id.binding?

/-- Of the scopes that there were only `k` has changed: behind its other bindings it binds the name
to the symbol on it, if there is one, which is not that of a formal. -/
structure Records (k : ScopeId) (t t' : SymbolTable) (id : Ident) : Prop
    extends Touches k t t' where
  bindings : (t'.scope k).bindings = (t.scope k).bindings ++ id.binding?.toList
  kind : ∀ symbol, id.symbol? = some symbol → symbol.isFormal = false

/-- A name without a symbol is not recorded. -/
theorem Records.unbound {id : Ident} (hFresh : id.symbol? = none) : Records k t t id where
  toTouches := .refl k t
  bindings := by rw [Ident.binding?, hFresh, Option.map_none, Option.toList_none, List.append_nil]
  kind symbol h := by
    rw [hFresh] at h
    cases h

/-- What happens behind the declaration, outside the scope `k`, is nothing to it. -/
theorem Records.frame {t'' : SymbolTable} {id : Ident} (h : Records k t t' id)
    (hTouches : Touches k t t'') (hScope : t''.scope k = t'.scope k) : Records k t t'' id where
  toTouches := hTouches
  bindings := hScope ▸ h.bindings
  kind := h.kind

/-- An accepted name is recorded behind the earlier ones, a refused one is not. -/
theorem Declares.records {id id' : Ident} {meaning : Meaning} (hk : k < t.store.length)
    (hFresh : id.symbol? = none) (hKind : meaning.category ≠ .formal)
    (h : Declares k id meaning t id' t' errors) : Records k t t' id' := by
  have hTouches := (h.adds hk).toTouches
  cases h with
  | taken => exact .unbound hFresh
  | bound hBound =>
    refine ⟨hTouches, ?_, fun symbol hSymbol => ?_⟩
    · rw [declareIn_scope_self hk hBound]
      rfl
    · obtain rfl := Option.some.inj hSymbol
      exact decide_eq_false hKind

/-- A variable of the program is recorded if it is accepted. -/
theorem VarDecl.Outcome.records {d d' : VarDecl} (hk : k < t.store.length)
    (hFresh : d.id.symbol? = none)
    (hFormals : ∀ binding ∈ (t.scope k).bindings, binding.2.isFormal = false)
    (h : d.Outcome t k d' t' errors) : Records k t t' d'.id := by
  cases h with
  | formal hFound hFormal =>
    -- there is no formal that the name could stand for
    obtain ⟨before, after, hBindings, -⟩ := List.lookup_eq_some_iff.mp hFound
    have hNot := hFormals (d.id.name, _) (hBindings ▸ List.mem_append_right _ List.mem_cons_self)
    rw [hFormal] at hNot
    cases hNot
  | void | noStruct => exact .unbound hFresh
  | typed _ hGives hDeclares =>
    refine hDeclares.records hk hFresh fun hCategory => ?_
    have hPlain := hGives.isPlain
    rw [hCategory] at hPlain
    cases hPlain

/-- A function is recorded if its name is accepted. -/
theorem funcDecl_records (f : FuncDecl) (hSound : t.Sound) (hStack : t.stack = k :: rest)
    (hFresh : f.id.symbol? = none) :
    ∃ f' t' errors, Yields f.resolve t f' t' errors ∧ Records k t t' f'.id := by
  have hk : k < t.store.length := hSound.innermost_made hStack
  obtain ⟨id', t₁, errors₁, hYields₁, hDeclares⟩ :=
    declareHere_yields hStack f.id (.function f.result.name f.paramTypes)
  have hRecords := hDeclares.records hk hFresh (by rintro ⟨⟩)
  have hSound₁ := (hRecords.toTouches.sound hSound).push
  -- the formals and the body, in a scope of their own
  obtain ⟨formals, t₂, errors₂, hYields₂, hTouches₂⟩ :=
    formals_fill f.formals t₁.push.2 _ _ hSound₁ (push_stack t₁)
  have hSound₂ := hTouches₂.sound hSound₁
  obtain ⟨decls, t₃, errors₃, hYields₃, hTouches₃⟩ :=
    resolveLocals_fills [] f.body.decls t₂ _ _ hSound₂ (hTouches₂.stack.trans (push_stack t₁))
  have hSound₃ := hTouches₃.sound hSound₂
  obtain ⟨stmts, t₄, errors₄, hYields₄, hFrame⟩ :=
    Stmt.resolveAll_leaves f.body.stmts t₃ hSound₃
  have hInner := (hTouches₂.trans hTouches₃).trans (hFrame.touches _)
  have hOuter := hInner.leave
  refine ⟨_, _, _, FuncDecl.resolve_yields hYields₁ hYields₂ hYields₃ hYields₄ hInner.stack, ?_⟩
  exact hRecords.frame (hRecords.toTouches.trans (hOuter.touches k))
    (hOuter.scope k (Nat.lt_of_lt_of_le hk hRecords.length))

/-- A struct is recorded if its name is accepted. -/
theorem structDecl_records (s : StructDecl) (hSound : t.Sound) (hStack : t.stack = k :: rest)
    (hFresh : s.id.symbol? = none) :
    ∃ s' t' errors, Yields s.resolve t s' t' errors ∧ Records k t t' s'.id := by
  have hk : k < t.store.length := hSound.innermost_made hStack
  obtain ⟨id', t₁, errors₁, fields, t₂, errors₂, hDeclares, hYields, hFields⟩ :=
    structDecl_yields s hStack
  have hRecords := hDeclares.records (newScope_length t ▸ Nat.lt_succ_of_lt hk) hFresh
    (by rintro ⟨⟩)
  obtain ⟨hTouches, hSame⟩ := hRecords.toTouches.around hFields hk
  refine ⟨_, t₂, _, hYields, hTouches, ?_, hRecords.kind⟩
  rw [hSame, hRecords.bindings, newScope_scope]

/-- A declaration of the top level records its name. -/
theorem decl_records (d : Decl) (hSound : t.Sound) (hStack : t.stack = k :: rest)
    (hFresh : d.id.symbol? = none)
    (hFormals : ∀ binding ∈ (t.scope k).bindings, binding.2.isFormal = false) :
    ∃ d' t' errors, Yields d.resolve t d' t' errors ∧ Records k t t' d'.id := by
  cases d with
  -- only variables ask whether a formal has their name, and no formal is in the global scope
  | var d =>
    have hk : k < t.store.length := hSound.innermost_made hStack
    obtain ⟨d', t', errors, hYields, hOutcome⟩ := d.resolve_yields hStack
    exact ⟨.var d', t', errors, hYields.map Decl.var, hOutcome.records hk hFresh hFormals⟩
  | func f =>
    obtain ⟨f', t', errors, hYields, hRecords⟩ := funcDecl_records f hSound hStack hFresh
    exact ⟨.func f', t', errors, hYields.map Decl.func, hRecords⟩
  | struct s =>
    obtain ⟨s', t', errors, hYields, hRecords⟩ := structDecl_records s hSound hStack hFresh
    exact ⟨.struct s', t', errors, hYields.map Decl.struct, hRecords⟩

/-- The scope of some declarations holds those that were accepted, behind what it held before. -/
theorem decls_record (ds : List Decl) (hSound : t.Sound) (hStack : t.stack = k :: rest)
    (hFresh : ∀ d ∈ ds, d.id.symbol? = none)
    (hFormals : ∀ binding ∈ (t.scope k).bindings, binding.2.isFormal = false) :
    ∃ ds' t' errors, Yields (ds.mapM Decl.resolve) t ds' t' errors ∧ t'.stack = t.stack ∧
      (t'.scope k).bindings = (t.scope k).bindings ++ ds'.filterMap Decl.binding? := by
  induction ds generalizing t with
  | nil => exact ⟨[], t, [], Yields.pure [] t, rfl, (List.append_nil _).symm⟩
  | cons d ds ih =>
    obtain ⟨hFreshHead, hFreshRest⟩ := List.forall_mem_cons.mp hFresh
    obtain ⟨d', t₁, errors₁, hYields₁, hRecords⟩ :=
      decl_records d hSound hStack hFreshHead hFormals
    -- what the declaration has added is not a formal
    have hFormals₁ : ∀ binding ∈ (t₁.scope k).bindings, binding.2.isFormal = false := by
      rw [hRecords.bindings, List.forall_mem_append]
      refine ⟨hFormals, fun binding hBinding => ?_⟩
      obtain ⟨symbol, hSymbol, rfl⟩ := Option.map_eq_some_iff.mp (Option.mem_toList.mp hBinding)
      exact hRecords.kind symbol hSymbol
    obtain ⟨ds', t₂, errors₂, hYields₂, hStack₂, hBindings⟩ :=
      ih (hRecords.toTouches.sound hSound) (hRecords.stack.trans hStack) hFreshRest
        hFormals₁
    refine ⟨d' :: ds', t₂, _, hYields₁.mapM_cons hYields₂, hStack₂.trans hRecords.stack, ?_⟩
    rw [hBindings, hRecords.bindings, List.append_assoc]
    show _ = _ ++ (List.filterMap Decl.binding? (d' :: ds'))
    cases hHead : Decl.binding? d' with
    | none => rw [List.filterMap_cons_none hHead, ← Decl.binding?, hHead]; rfl
    | some binding => rw [List.filterMap_cons_some hHead, ← Decl.binding?, hHead]; rfl

/-- If no name of the top level carries a symbol before an analysis, the global scope holds those
that carry one afterwards, and no other scope is open. -/
theorem analyze_globals (a : Analyzer) {p : Program} (hFresh : ∀ d ∈ p.decls, d.id.symbol? = none) :
    ∃ q b, a.analyze p = .ok (q, b) ∧ b.table.stack = [a.table.store.length] ∧
      b.table.scope a.table.store.length = ⟨q.decls.filterMap Decl.binding?⟩ := by
  have hEmpty : (a.table.restart.scope a.table.store.length).bindings = [] := by
    rw [restart_scope, scope_of_length_le (Nat.le_refl _)]
  obtain ⟨decls, t, errors, hYields, hStack, hBindings⟩ :=
    decls_record p.decls (.restart a.table) (restart_stack a.table) hFresh
      (by rw [hEmpty]; exact List.forall_mem_nil _)
  obtain ⟨b, hAnalyze, rfl, -⟩ := analyze_of_yields hYields
  rw [hEmpty, List.nil_append] at hBindings
  exact ⟨_, b, hAnalyze, hStack, congrArg Scope.mk hBindings⟩

/-! ## Whole analyses -/

/-- **Scope discipline.** While distinct scopes are open, and they always are, every expression and
every statement leaves them as they were, and every declaration adds at most one binding, at the
end of the innermost one. An analysis does not fail, whatever symbols the program carries already.
At its end only the global scope is open. It binds, in order, the names that carry a symbol in the
answer to the same program without symbols; and in the answer to the program itself they carry this
symbol, too. -/
theorem scopes_are_disciplined (a : Analyzer) (p : Program) :
    (∀ t, t.Sound → (∀ e, Restores t (useExpr e)) ∧ (∀ s : Stmt, Restores t s.resolve) ∧
      (∀ d : VarDecl, AddsOne t d.resolve) ∧ (∀ f : Formal, AddsOne t f.resolve) ∧
      (∀ f : FuncDecl, AddsOne t f.resolve) ∧ ∀ s : StructDecl, AddsOne t s.resolve) ∧
    (∀ done u, Reached a.table.restart p.parts done u → u.Sound) ∧
    ∃ q b q₀ b₀, a.analyze p = .ok (q, b) ∧ a.analyze p.bare = .ok (q₀, b₀) ∧
      b.table.depth = 1 ∧ b.table.openScopes = [⟨q₀.decls.filterMap Decl.binding?⟩] ∧
      List.Forall₂ (fun d d₀ => d.id.bare = d₀.id.bare ∧
        ∀ symbol, d₀.id.symbol? = some symbol → d.id.symbol? = some symbol) q.decls q₀.decls ∧
      ((∀ d ∈ p.decls, d.id.symbol? = none) →
        b.table.openScopes = [⟨q.decls.filterMap Decl.binding?⟩]) := by
  refine ⟨fun t hSound => ⟨fun e => (useExpr_leaves e).restores hSound,
    fun s => s.resolve_leaves.restores hSound, fun d => d.resolve_enters.addsOne hSound,
    fun f => f.resolve_enters.addsOne hSound, fun f => f.resolve_enters.addsOne hSound,
    fun s => s.resolve_enters.addsOne hSound⟩, fun done u h => h.sound (.restart a.table), ?_⟩
  -- the program does what it does without symbols, of which the global scope is known
  obtain ⟨q, b, q₀, b₀, hAnalyze, hAnalyze₀, -, hShifted, hAgree⟩ :=
    analyze_mimics (n := 0) (rfl : a.table.store.length = a.table.store.length + 0) p
  have hBare : ∀ d ∈ p.bare.decls, d.id.symbol? = none := fun d hd => by
    obtain ⟨d₀, -, rfl⟩ := List.mem_map.mp hd
    cases d₀ <;> rfl
  obtain ⟨q₁, b₁, hAnalyze₁, hStack, hScope⟩ := analyze_globals a hBare
  obtain ⟨rfl, rfl⟩ := Prod.mk.inj (Except.ok.inj (hAnalyze₀.symm.trans hAnalyze₁))
  have hStack' : b.table.stack = [a.table.store.length] := by
    rw [hShifted.stack, hStack]
    rfl
  have hScope' := hShifted.scope a.table.store.length (Nat.le_refl _)
  rw [Scope.shift_zero, hScope, Nat.add_zero] at hScope'
  refine ⟨q, b, q₀, b₀, hAnalyze, hAnalyze₀, ?_, ?_, ?_, fun hFresh => ?_⟩
  · rw [depth, hStack', List.length_singleton]
  · rw [openScopes, hStack', List.map_singleton, hScope']
  · refine hAgree.imp fun d d₀ h => ⟨h.name.bare, fun symbol hSymbol => ?_⟩
    rw [h.name.symbol symbol hSymbol, Symbol.shift_zero]
  · obtain ⟨q₁, b₁, hAnalyze₁, hStack₁, hScope₁⟩ := analyze_globals a hFresh
    obtain ⟨rfl, rfl⟩ := Prod.mk.inj (Except.ok.inj (hAnalyze.symm.trans hAnalyze₁))
    rw [openScopes, hStack₁, List.map_singleton, hScope₁]

/-- A program whose second struct is refused, from its first table to its last. -/
theorem chainProgram_scopes_disciplined :
    (∀ d ∈ chainProgram.decls, d.id.symbol? = none) ∧
    (∀ s : Stmt, Restores Analyzer.new.table.restart.push.2 s.resolve) ∧
    (∀ d : VarDecl, AddsOne Analyzer.new.table.restart.push.2 d.resolve) ∧
    ∃ q b, Analyzer.new.analyze chainProgram = .ok (q, b) ∧ b.table.depth = 1 ∧
      b.table.openScopes = [⟨q.decls.filterMap Decl.binding?⟩] ∧
      b.table.openScopes.map Scope.names = [["P", "Q", "f"]] := by
  -- what the theorem needs of the program is that it has no symbols yet
  have hFresh : ∀ d ∈ chainProgram.decls, d.id.symbol? = none := by decide
  have hSound : Analyzer.new.table.restart.push.2.Sound := (SymbolTable.Sound.restart _).push
  obtain ⟨hWalks, -, q, b, q₀, b₀, hAnalyze, -, hDepth, -, -, hGlobals⟩ :=
    scopes_are_disciplined Analyzer.new chainProgram
  obtain ⟨-, hStmts, hVars, -⟩ := hWalks _ hSound
  have hNames : (Analyzer.new.analyze chainProgram).toOption.map
      (fun answer => answer.2.table.openScopes.map Scope.names) = some [["P", "Q", "f"]] := by
    decide +kernel
  rw [hAnalyze] at hNames
  exact ⟨hFresh, hStmts, hVars, q, b, hAnalyze, hDepth, hGlobals hFresh, Option.some.inj hNames⟩

end NameResolution
