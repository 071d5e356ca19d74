import NameResolution.Proofs.Analysis.Mirror
import NameResolution.Proofs.Analysis.Outcome

/-!
# Scope discipline — what a walk leaves of the open scopes

Every scope that a walk opens it closes again, and what it declares goes into the innermost scope.
This needs no more of a symbol table than that its open scopes are distinct ones that have been
made, and it holds of every tree, whatever symbols the tree carries.

* `Leaves` — a part of the walk after which all scopes are as they were: expressions, statements.
* `Fills` — one that may declare names in the innermost scope.
* `Enters` — one that adds at most one binding there, at its end: every single declaration.
-/

namespace NameResolution

open Analysis SymbolTable

variable {α β : Type} {t t' t'' : SymbolTable} {k : ScopeId} {rest : List ScopeId}

/-! ## Parts that leave all scopes alone, parts that fill one -/

/-- From a sound table the part does not fail, and every scope is as it was. -/
def Leaves (part : Resolve α) : Prop :=
  ∀ t, t.Sound → ∃ x t' errors, Yields part t x t' errors ∧ Frame t t'

/-- From a sound table the part does not fail, and only the innermost scope may bind more. -/
def Fills (part : Resolve α) : Prop :=
  ∀ t k rest, t.Sound → t.stack = k :: rest →
    ∃ x t' errors, Yields part t x t' errors ∧ Touches k t t'

variable {part : Resolve α} {next : α → Resolve β}

/-- What leaves the scopes as they were fills the innermost one with nothing. -/
theorem Leaves.fills (h : Leaves part) : Fills part := by
  intro t k rest hSound _
  obtain ⟨x, t', errors, hYields, hFrame⟩ := h t hSound
  exact ⟨x, t', errors, hYields, hFrame.touches k⟩

/-- An answer alone leaves the scopes as they were. -/
theorem Leaves.pure (x : α) : Leaves (Pure.pure x) :=
  fun t _ => ⟨x, t, [], Yields.pure x t, .refl t⟩

/-- Two parts that leave the scopes as they were do so together. -/
theorem Leaves.bind (h : Leaves part) (hNext : ∀ x, Leaves (next x)) : Leaves (part >>= next) := by
  intro t hSound
  obtain ⟨x, t₁, errors₁, hYields₁, hFrame₁⟩ := h t hSound
  obtain ⟨y, t₂, errors₂, hYields₂, hFrame₂⟩ := hNext x t₁ (hFrame₁.sound hSound)
  exact ⟨y, t₂, errors₁ ++ errors₂, hYields₁.bind hYields₂, hFrame₁.trans hFrame₂⟩

/-- Making something of the answer changes no scope. -/
theorem Leaves.bind_pure (h : Leaves part) (make : α → β) :
    Leaves (part >>= fun x => Pure.pure (make x)) :=
  h.bind fun x => .pure (make x)

/-- Two parts that fill the innermost scope do so together. -/
theorem Fills.bind (h : Fills part) (hNext : ∀ x, Fills (next x)) : Fills (part >>= next) := by
  intro t k rest hSound hStack
  obtain ⟨x, t₁, errors₁, hYields₁, hTouches₁⟩ := h t k rest hSound hStack
  obtain ⟨y, t₂, errors₂, hYields₂, hTouches₂⟩ := hNext x t₁ k rest
    (hTouches₁.sound hSound) (hTouches₁.stack.trans hStack)
  exact ⟨y, t₂, errors₁ ++ errors₂, hYields₁.bind hYields₂, hTouches₁.trans hTouches₂⟩

/-- Parts in a row fill the innermost scope if each of them does. -/
theorem Fills.mapM {step : α → Resolve β} (h : ∀ x, Fills (step x)) (xs : List α) :
    Fills (xs.mapM step) := by
  induction xs with
  | nil => exact (Leaves.pure []).fills
  | cons x xs ih =>
    rw [List.mapM_cons]
    exact (h x).bind fun y => ih.bind fun ys => (Leaves.pure (y :: ys)).fills

/-- Whatever a part puts into a scope of its own is gone behind it. -/
theorem Fills.inScope (h : Fills part) : Leaves (inScope part) := by
  intro t hSound
  obtain ⟨x, t', errors, hYields, hTouches⟩ := h t.push.2 _ _ hSound.push (push_stack t)
  exact ⟨x, { t' with stack := t.stack }, errors, inScope_yields hYields hTouches.stack,
    hTouches.leave⟩

/-! ## Uses -/

/-- A use of a name changes no scope. -/
theorem useIdent_leaves (id : Ident) : Leaves (useIdent id) :=
  fun t _ => ⟨_, t, _, useIdent_yields id t, .refl t⟩

theorem useLoc_leaves (l : Loc) : Leaves (useLoc l) :=
  fun t _ => ⟨_, t, _, useLoc_yields l t, .refl t⟩

theorem useExpr_leaves (e : Expr) : Leaves (useExpr e) :=
  fun t _ => ⟨_, t, _, useExpr_yields e t, .refl t⟩

/-- The uses of some expressions change no scope. -/
theorem useExprs_leaves (es : List Expr) : Leaves (useExprs es) :=
  fun t _ => ⟨_, t, _, useExprs_yields es t, .refl t⟩

/-! ## Declared names -/

/-- Of the scopes that there were only `k` may bind more, and only by one binding at its end. -/
structure SymbolTable.Adds (k : ScopeId) (t t' : SymbolTable) : Prop extends Touches k t t' where
  added : t'.scope k = t.scope k ∨ ∃ name symbol, t'.scope k = (t.scope k).bind name symbol

/-- Nothing is added if nothing happens. -/
theorem SymbolTable.Adds.refl (k : ScopeId) (t : SymbolTable) : Adds k t t :=
  ⟨.refl k t, .inl rfl⟩

/-- Seen from outside, the innermost scope has gained at most one binding. -/
theorem SymbolTable.Adds.openScopes_eq (h : Adds k t t') (hSound : t.Sound)
    (hStack : t.stack = k :: rest) :
    ∃ innermost outer, t.openScopes = innermost :: outer ∧ (t'.openScopes = innermost :: outer ∨
      ∃ name symbol, t'.openScopes = innermost.bind name symbol :: outer) := by
  -- the stack has no scope twice, so the scopes around are other ones than the innermost
  have hNot : k ∉ rest := (List.nodup_cons.mp (hStack ▸ hSound.nodup)).1
  have hOuter : rest.map t'.scope = rest.map t.scope := by
    refine List.map_congr_left fun j hj => h.other j ?_ (ne_of_mem_of_not_mem hj hNot)
    exact hSound.made j (hStack ▸ List.mem_cons_of_mem k hj)
  refine ⟨t.scope k, rest.map t.scope, by rw [openScopes, hStack, List.map_cons], ?_⟩
  rw [openScopes, h.stack, hStack, List.map_cons, hOuter]
  refine h.added.imp (fun hSame => by rw [hSame]) ?_
  rintro ⟨name, symbol, hBound⟩
  exact ⟨name, symbol, by rw [hBound]⟩

/-- After the binding nothing more is changed. -/
theorem SymbolTable.Adds.frame (h : Adds k t t') (hFrame : Frame t' t'')
    (hk : k < t.store.length) : Adds k t t'' where
  toTouches := h.toTouches.trans (hFrame.touches k)
  added := by
    rw [hFrame.scope k (Nat.lt_of_lt_of_le hk h.length)]
    exact h.added

/-- A declaration makes no scope. -/
theorem Declares.length_eq {id id' : Ident} {meaning : Meaning} {errors : List Diagnostic}
    (h : Declares k id meaning t id' t' errors) : t'.store.length = t.store.length := by
  cases h with
  | taken => rfl
  | bound h => exact declareIn_length h

/-- A declaration adds at most one binding. -/
theorem Declares.adds {id id' : Ident} {meaning : Meaning} {errors : List Diagnostic}
    (hk : k < t.store.length) (h : Declares k id meaning t id' t' errors) : Adds k t t' := by
  cases h with
  | taken => exact .refl k t
  | bound h =>
    exact
      { stack := (declareIn_eq_some h).2.1
        length := Nat.le_of_eq (declareIn_length h).symm
        other := fun j _ hj => declareIn_scope_other h hj
        added := .inr ⟨_, _, declareIn_scope_self hk h⟩ }

/-- Whatever becomes of a variable, it adds at most one binding. -/
theorem VarDecl.Outcome.adds {d d' : VarDecl} {errors : List Diagnostic}
    (hk : k < t.store.length) (h : d.Outcome t k d' t' errors) : Adds k t t' := by
  cases h with
  | formal | void | noStruct => exact .refl k t
  | typed _ _ hDeclares => exact hDeclares.adds hk

/-- From a sound table the part does not fail; of the open scopes, only the innermost one may
change, by one binding at its end. -/
def Enters (part : Resolve α) : Prop :=
  ∀ t k rest, t.Sound → t.stack = k :: rest →
    ∃ x t' errors, Yields part t x t' errors ∧ Adds k t t'

/-- What adds at most one binding fills the innermost scope. -/
theorem Enters.fills (h : Enters part) : Fills part := by
  intro t k rest hSound hStack
  obtain ⟨x, t', errors, hYields, hAdds⟩ := h t k rest hSound hStack
  exact ⟨x, t', errors, hYields, hAdds.toTouches⟩

/-- A name, and behind it what leaves all scopes alone. -/
theorem Enters.bind (h : Enters part) (hNext : ∀ x, Leaves (next x)) : Enters (part >>= next) := by
  intro t k rest hSound hStack
  obtain ⟨x, t₁, errors₁, hYields₁, hAdds⟩ := h t k rest hSound hStack
  obtain ⟨y, t₂, errors₂, hYields₂, hFrame⟩ :=
    hNext x t₁ (hAdds.toTouches.sound hSound)
  have hk : k < t.store.length := hSound.innermost_made hStack
  exact ⟨y, t₂, errors₁ ++ errors₂, hYields₁.bind hYields₂, hAdds.frame hFrame hk⟩

/-- Declaring a name adds at most one binding. -/
theorem declareHere_enters (id : Ident) (meaning : Meaning) : Enters (declareHere id meaning) := by
  intro t k rest hSound hStack
  obtain ⟨id', t', errors, hYields, hDeclares⟩ := declareHere_yields hStack id meaning
  exact ⟨id', t', errors, hYields, hDeclares.adds (hSound.innermost_made hStack)⟩

/-- A variable adds at most one binding. -/
theorem VarDecl.resolve_enters (d : VarDecl) : Enters d.resolve := by
  intro t k rest hSound hStack
  obtain ⟨d', t', errors, hYields, hOutcome⟩ := d.resolve_yields hStack
  exact ⟨d', t', errors, hYields, hOutcome.adds (hSound.innermost_made hStack)⟩

theorem Formal.resolve_enters (f : Formal) : Enters f.resolve :=
  (declareHere_enters f.id _).bind fun id => .pure { f with id := id }

/-- The formals of a function fill its scope. -/
theorem formals_fill (fs : List Formal) : Fills (fs.mapM Formal.resolve) :=
  Fills.mapM (fun f => f.resolve_enters.fills) fs

/-! ## Statements -/

/-- A block leaves the scopes as they were if its statements do. -/
theorem inBlock_leaves (decls : List VarDecl) {stmts : Resolve (List Stmt)} (h : Leaves stmts) :
    Leaves (inBlock decls stmts) :=
  Fills.inScope <| (Fills.mapM (fun d => d.resolve_enters.fills) decls).bind fun decls' =>
    (h.bind_pure (Block.mk decls')).fills

mutual

/-- A statement leaves the scopes as they were: its blocks close what they open. -/
theorem Stmt.resolve_leaves : (s : Stmt) → Leaves s.resolve
  | .assign target value => by
    rw [Stmt.resolve]
    exact (useLoc_leaves target).bind fun target' => (useExpr_leaves value).bind_pure _
  | .increment target | .decrement target | .read target => by
    rw [Stmt.resolve]
    exact (useLoc_leaves target).bind_pure _
  | .write value | .ret (some value) => by
    rw [Stmt.resolve]
    exact (useExpr_leaves value).bind_pure _
  -- a callee is used before its arguments, and neither changes the scopes
  | .call callee args => by
    rw [Stmt.resolve]
    exact (useIdent_leaves callee).bind fun callee' => (useExprs_leaves args).bind_pure _
  | .ret none => by
    rw [Stmt.resolve]
    exact .pure _
  -- a block opens a scope of its own and closes it again
  | .ifThen cond ⟨decls, stmts⟩ | .loop cond ⟨decls, stmts⟩ => by
    rw [Stmt.resolve]
    exact (useExpr_leaves cond).bind fun cond' =>
      (inBlock_leaves decls (Stmt.resolveAll_leaves stmts)).bind_pure _
  | .ifElse cond ⟨decls, stmts⟩ ⟨elseDecls, elseStmts⟩ => by
    rw [Stmt.resolve]
    exact (useExpr_leaves cond).bind fun cond' =>
      (inBlock_leaves decls (Stmt.resolveAll_leaves stmts)).bind fun body =>
        (inBlock_leaves elseDecls (Stmt.resolveAll_leaves elseStmts)).bind_pure _

theorem Stmt.resolveAll_leaves : (ss : List Stmt) → Leaves (Stmt.resolveAll ss)
  | [] => .pure []
  | s :: ss => by
    rw [Stmt.resolveAll]
    exact (Stmt.resolve_leaves s).bind fun s' => (Stmt.resolveAll_leaves ss).bind_pure _

end

/-! ## Functions and structs -/

/-- The variables of a function body fill its scope. -/
theorem resolveLocals_fills (seen : List String) (ds : List VarDecl) :
    Fills (resolveLocals seen ds) := by
  induction ds generalizing seen with
  | nil => exact (Leaves.pure []).fills
  | cons d ds ih =>
    intro t k rest hSound hStack
    -- a repeated variable that is named like a formal is reported and adds nothing
    by_cases hRepeats :
        (seen.contains d.id.name && (t.lookupLocal d.id.name).any Symbol.isFormal) = true
    · obtain ⟨ds', t', errors, hYields, hTouches⟩ := ih (d.id.name :: seen) t k rest hSound hStack
      exact ⟨d :: ds', t', _, resolveLocals_repeated hRepeats hYields, hTouches⟩
    · obtain ⟨d', t₁, errors₁, hYields₁, hAdds⟩ := d.resolve_enters t k rest hSound hStack
      obtain ⟨ds', t₂, errors₂, hYields₂, hTouches⟩ := ih (d.id.name :: seen) t₁ k rest
        (hAdds.toTouches.sound hSound) (hAdds.stack.trans hStack)
      exact ⟨d' :: ds', t₂, _, resolveLocals_resolved hRepeats hYields₁ hYields₂,
        hAdds.toTouches.trans hTouches⟩

/-- The body of a function fills the scope of the function. -/
theorem resolveBody_fills (body : Block Stmt) : Fills (resolveBody body) :=
  (resolveLocals_fills [] body.decls).bind fun decls =>
    ((Stmt.resolveAll_leaves body.stmts).bind_pure (Block.mk decls)).fills

/-- A function adds at most its name to the scope around it. -/
theorem FuncDecl.resolve_enters (f : FuncDecl) : Enters f.resolve :=
  (declareHere_enters f.id _).bind fun _ =>
    Fills.inScope <| (formals_fill f.formals).bind fun _ =>
      (resolveBody_fills f.body).bind fun _ => (Leaves.pure _).fills

/-- The fields of a struct, in a scope that need not be open. -/
theorem fields_touch (k : ScopeId) (ds : List VarDecl) (t : SymbolTable)
    (hk : k < t.store.length) :
    ∃ ds' t' errors, Yields (ds.mapM (VarDecl.resolveIn k)) t ds' t' errors ∧ Touches k t t' := by
  induction ds generalizing t with
  | nil => exact ⟨[], t, [], Yields.pure [] t, .refl k t⟩
  | cons d ds ih =>
    obtain ⟨d', t₁, errors₁, hYields₁, hOutcome⟩ := d.resolveIn_yields k t
    have hAdds := hOutcome.adds hk
    obtain ⟨ds', t₂, errors₂, hYields₂, hTouches⟩ := ih t₁ (Nat.lt_of_lt_of_le hk hAdds.length)
    exact ⟨d' :: ds', t₂, _, hYields₁.mapM_cons hYields₂, hAdds.toTouches.trans hTouches⟩

/-- A new scope is made and filled, and in between something changes in `k`. -/
theorem SymbolTable.Touches.around (h : Touches k t.newScope.2 t')
    (hInside : Touches t.store.length t' t'') (hk : k < t.store.length) :
    Touches k t t'' ∧ t''.scope k = t'.scope k := by
  have hLength := h.length
  rw [newScope_length] at hLength
  -- a scope that was there before the struct is not the one of its fields
  have hMade : ∀ {j}, j < t.store.length → j < t'.store.length := fun hj =>
    Nat.lt_of_lt_of_le (Nat.lt_succ_of_lt hj) hLength
  refine ⟨?_, hInside.other k (hMade hk) (Nat.ne_of_lt hk)⟩
  exact
    { stack := hInside.stack.trans h.stack
      length := Nat.le_trans (Nat.le_of_succ_le hLength) hInside.length
      other := fun j hj hjk => by
        have hjNew : j < t.newScope.2.store.length := newScope_length t ▸ Nat.lt_succ_of_lt hj
        rw [hInside.other j (hMade hj) (Nat.ne_of_lt hj), h.other j hjNew hjk, newScope_scope] }

/-- The name of a struct is declared in the innermost scope, and its fields in a new one. -/
theorem structDecl_yields (s : StructDecl) (hStack : t.stack = k :: rest) :
    ∃ id' t₁ errors₁ fields t₂ errors₂,
      Declares k s.id (.structDecl t.store.length) t.newScope.2 id' t₁ errors₁ ∧
        Yields s.resolve t ⟨id', fields⟩ t₂ (errors₁ ++ errors₂) ∧
          Touches t.store.length t₁ t₂ := by
  -- the field table is made before the name is declared
  obtain ⟨id', t₁, errors₁, hYields₁, hDeclares⟩ :=
    declareHere_yields (t := t.newScope.2) hStack s.id (.structDecl t.store.length)
  have hInside : t.store.length < t₁.store.length := by
    rw [hDeclares.length_eq, newScope_length]
    exact Nat.lt_succ_self _
  obtain ⟨fields, t₂, errors₂, hYields₂, hFields⟩ :=
    fields_touch t.store.length s.fields t₁ hInside
  exact ⟨id', t₁, errors₁, fields, t₂, errors₂, hDeclares,
    StructDecl.resolve_yields hYields₁ hYields₂, hFields⟩

/-- A struct adds at most its name to the scope around it. -/
theorem StructDecl.resolve_enters (s : StructDecl) : Enters s.resolve := by
  intro t k rest hSound hStack
  have hk : k < t.store.length := hSound.innermost_made hStack
  obtain ⟨id', t₁, errors₁, fields, t₂, errors₂, hDeclares, hYields, hFields⟩ :=
    structDecl_yields s hStack
  have hAdds := hDeclares.adds (newScope_length t ▸ Nat.lt_succ_of_lt hk)
  obtain ⟨hTouches, hSame⟩ := hAdds.toTouches.around hFields hk
  refine ⟨⟨id', fields⟩, t₂, errors₁ ++ errors₂, hYields, hTouches, ?_⟩
  rw [hSame, ← newScope_scope t k]
  exact hAdds.added

end NameResolution
