import NameResolution.Proofs.Analysis.Inert
import NameResolution.Proofs.Analysis.Unread

/-!
# Unused declarations — what a variable that nothing names is to the rest of its program

A variable of a basic type whose name occurs nowhere else is always accepted, and it is never looked
up. So an analysis with it reports what an analysis without it reports, and puts the same symbols on
all other identifiers.

Up to the declaration both analyses have the same symbol table. Behind it the tables differ in one
binding, and what is left of the tree does not see it.

* `VarDecl.Outcome.unused` — the declaration itself.
* `Tolerates` — a walk over a tree against the walks over the same tree without one declaration.
* `unused_declarations_are_harmless` — a whole analysis.
-/

namespace NameResolution

open Analysis SymbolTable

variable {α β γ : Type} {g k : ScopeId} {t t' t₁ t₂ : SymbolTable} {rest : List ScopeId}
  {errors errors₁ errors₂ : List Diagnostic}

/-! ## The declaration itself -/

/-- The type of the variable or field is a basic one. -/
def VarDecl.IsScalar (d : VarDecl) : Prop :=
  d.type = .boolean ∨ d.type = .integer

/-- No type makes a struct of a variable. -/
theorem TypeRef.Gives.isStructDecl_eq {type type' : TypeRef} {meaning : Meaning}
    (h : TypeRef.Gives t type type' meaning) (name : String) :
    (declaredSymbol k name meaning).isStructDecl = false := by
  cases h <;> rfl

/-- A scalar whose name is bound nowhere is accepted, and its binding is all that it changes. -/
theorem VarDecl.Outcome.unused {d d' : VarDecl} (h : d.Outcome t k d' t' errors)
    (hScalar : d.IsScalar) (hBase : g ≤ k) (hk : k < t.store.length)
    (hFree : ExceptFor g d.id.name t t) : errors = [] ∧ ExceptFor g d.id.name t' t := by
  have hUnbound := hFree.free k hBase
  -- nothing else has the name, so the declaration is accepted and has no error
  cases h with
  | formal hFound =>
    rw [hUnbound] at hFound
    cases hFound
  | void _ hType | noStruct _ hType => rcases hScalar with h | h <;> cases h.symm.trans hType
  | typed _ hGives hDeclares =>
    cases hDeclares with
    | taken hTaken =>
      rw [declareIn_eq_none, hUnbound] at hTaken
      cases hTaken
    | bound hBound => exact ⟨rfl, hFree.declareIn_left hk (hGives.isStructDecl_eq _) hBound⟩

/-! ## Walks that tolerate a declaration more -/

/-- A removal from a tree and the same removal from what a walk made of the tree: if the declaration
is a scalar that nothing else is named like, the walk makes the one of the other with the same
errors, and the tables differ in what they bind its name to. -/
def Harmless (g : ScopeId) (walk : α → Resolve α) (idents : α → List Ident) (t t' : SymbolTable)
    (errors : List Diagnostic) (r r' : Removal α) : Prop :=
  r.removed.IsScalar → Avoids r.removed.id.name (idents r.left) →
    ExceptFor g r.removed.id.name t t →
      ∃ u, Yields (walk r.left) t r'.left u errors ∧ ExceptFor g r.removed.id.name t' u

/-- The walk makes `x'` of the tree `x`, and every removal from it is harmless. -/
structure Tolerates (g : ScopeId) (walk : α → Resolve α) (idents : α → List Ident)
    (removals : α → List (Removal α)) (t : SymbolTable) (x x' : α) (t' : SymbolTable)
    (errors : List Diagnostic) : Prop where
  yields : Yields (walk x) t x' t' errors
  stack : t'.stack = t.stack
  length : t.store.length ≤ t'.store.length
  harmless : List.Forall₂ (Harmless g walk idents t t' errors) (removals x) (removals x')

namespace Tolerates

variable {walk : α → Resolve α} {walk₁ : β → Resolve β} {walk₂ : γ → Resolve γ}
  {idents : α → List Ident} {idents₁ : β → List Ident} {idents₂ : γ → List Ident}
  {removals : α → List (Removal α)} {removals₁ : β → List (Removal β)}
  {removals₂ : γ → List (Removal γ)} {x x' : α} {y y' : β} {z z' : γ}

/-- A tree without declarations. -/
theorem leaf (h : Yields (walk x) t x' t errors) (hBefore : removals x = [])
    (hAfter : removals x' = []) : Tolerates g walk idents removals t x x' t errors where
  yields := h
  stack := rfl
  length := Nat.le_refl _
  harmless := by
    rw [hBefore, hAfter]
    exact .nil

/-- A walk that tolerates more declarations keeps the table sound. -/
theorem sound (h : Tolerates g walk idents removals t x x' t' errors) (hSound : t.Sound) :
    t'.Sound :=
  hSound.of_stack h.stack h.length

/-- Removals from a part of a tree, as removals from the tree. -/
theorem harmless_map {rs rs' : List (Removal β)} {make make' : β → α} {t' : SymbolTable}
    (h : List.Forall₂ (Harmless g walk₁ idents₁ t₁ t₂ errors) rs rs')
    (among : List Diagnostic → List Diagnostic)
    (hEnter : ∀ name y, Avoids name (idents (make y)) → ExceptFor g name t t →
      Avoids name (idents₁ y) ∧ ExceptFor g name t₁ t₁)
    (hWalk : ∀ name y y' u, Avoids name (idents (make y)) → ExceptFor g name t t →
      Yields (walk₁ y) t₁ y' u errors → ExceptFor g name t₂ u →
        ∃ u', Yields (walk (make y)) t (make' y') u' (among errors) ∧ ExceptFor g name t' u') :
    List.Forall₂ (Harmless g walk idents t t' (among errors)) (rs.map (.map make))
      (rs'.map (.map make')) := by
  rw [List.forall₂_map_left_iff, List.forall₂_map_right_iff]
  refine h.imp fun r r' hHarmless hScalar hNames hFree => ?_
  -- the tables differ in the name only, when the part begins and when it ends
  obtain ⟨hInner, hFree₁⟩ := hEnter _ r.left hNames hFree
  obtain ⟨u, hYields, hExcept⟩ := hHarmless hScalar hInner hFree₁
  exact hWalk _ r.left r'.left u hNames hFree hYields hExcept

/-- A walk over a larger tree, of which only the part `y` declares something. It does not bind the
name before that part, and `close` is what happens to the table behind it. -/
theorem wrap (h : Tolerates g walk₁ idents₁ removals₁ t₁ y y' t₂ errors) (make make' : β → α)
    (before : List Diagnostic) (close : SymbolTable → SymbolTable)
    (hWalk : ∀ y y' u errors, u.stack = t₂.stack → Yields (walk₁ y) t₁ y' u errors →
      Yields (walk (make y)) t (make' y') (close u) (before ++ errors))
    (hEnter : ∀ name y, Avoids name (idents (make y)) → ExceptFor g name t t →
      Avoids name (idents₁ y) ∧ ExceptFor g name t₁ t₁)
    (hClose : ∀ name u, ExceptFor g name t t → ExceptFor g name t₂ u →
      ExceptFor g name (close t₂) (close u))
    (hStack : (close t₂).stack = t.stack) (hLength : t.store.length ≤ (close t₂).store.length)
    (hBefore : ∀ y, removals (make y) = (removals₁ y).map (.map make))
    (hAfter : ∀ y, removals (make' y) = (removals₁ y).map (.map make')) :
    Tolerates g walk idents removals t (make y) (make' y') (close t₂) (before ++ errors) where
  yields := hWalk y y' t₂ errors rfl h.yields
  stack := hStack
  length := hLength
  -- each removal inside is one of the whole, put into the same surroundings
  harmless := by
    rw [hBefore, hAfter]
    refine harmless_map h.harmless (before ++ ·) hEnter
      fun name y y' u _ hFree hYields hExcept => ?_
    exact ⟨close u, hWalk y y' u errors hExcept.stack hYields, hClose name u hFree hExcept⟩

/-- A walk over a tree with two parts that declare something, one after the other. -/
theorem both (h₁ : Tolerates g walk₁ idents₁ removals₁ t y y' t₁ errors₁)
    (h₂ : Tolerates g walk₂ idents₂ removals₂ t₁ z z' t₂ errors₂) (make make' : β → γ → α)
    (before : List Diagnostic)
    (hBlind₁ : ∀ name, Avoids name (idents₁ y) → Blind g name (walk₁ y))
    (hBlind₂ : ∀ name, Avoids name (idents₂ z) → Blind g name (walk₂ z))
    (hWalk : ∀ y y' z z' u₁ u₂ errors₁ errors₂, Yields (walk₁ y) t y' u₁ errors₁ →
      Yields (walk₂ z) u₁ z' u₂ errors₂ →
        Yields (walk (make y z)) t (make' y' z') u₂ (before ++ (errors₁ ++ errors₂)))
    (hIdents : ∀ name y z, Avoids name (idents (make y z)) →
      Avoids name (idents₁ y) ∧ Avoids name (idents₂ z))
    (hBefore : ∀ y z, removals (make y z) = eitherRemovals make y (removals₁ y) z (removals₂ z))
    (hAfter : ∀ y z, removals (make' y z) = eitherRemovals make' y (removals₁ y) z (removals₂ z)) :
    Tolerates g walk idents removals t (make y z) (make' y' z') t₂
      (before ++ (errors₁ ++ errors₂)) where
  yields := hWalk _ _ _ _ _ _ _ _ h₁.yields h₂.yields
  stack := h₂.stack.trans h₁.stack
  length := Nat.le_trans h₁.length h₂.length
  harmless := by
    rw [hBefore, hAfter]
    refine List.rel_append ?_ ?_
    -- the declaration is in the first part, and the second one does not see it
    · refine harmless_map h₁.harmless (fun errors => before ++ (errors ++ errors₂))
        (fun name y hNames hFree => ⟨(hIdents name y z hNames).1, hFree⟩)
        fun name y y' u hNames _ hYields hExcept => ?_
      obtain ⟨u', hYields', hExcept'⟩ :=
        (hBlind₂ name (hIdents name y z hNames).2).yields h₂.yields hExcept
      exact ⟨u', hWalk _ _ _ _ _ _ _ _ hYields hYields', hExcept'⟩
    -- the declaration is in the second part, and the first one does not bind its name
    · refine harmless_map h₂.harmless (fun errors => before ++ (errors₁ ++ errors))
        (fun name z hNames hFree => ?_) fun name z z' u _ _ hYields hExcept =>
          ⟨u, hWalk _ _ _ _ _ _ _ _ h₁.yields hYields, hExcept⟩
      obtain ⟨hFirst, hSecond⟩ := hIdents name y z hNames
      exact ⟨hSecond, (hBlind₁ name hFirst).free h₁.yields hFree⟩

/-- A row that begins with a variable. When nothing is named like that, `walk` has to make of the
others what `tail` makes of them. -/
theorem cons {δ : Type} {walk tail : List δ → Resolve (List δ)} {idents : List δ → List Ident}
    {removals : List δ → List (Removal (List δ))} {x x' : δ} {xs xs' : List δ} {d d' : VarDecl}
    (h : Tolerates g tail idents removals t₁ xs xs' t₂ errors₂) (hStack : t₁.stack = t.stack)
    (hLength : t.store.length ≤ t₁.store.length)
    (hWalk : ∀ ys ys' u errors, Yields (tail ys) t₁ ys' u errors →
      Yields (walk (x :: ys)) t (x' :: ys') u (errors₁ ++ errors))
    (hEnter : ∀ name ys, Avoids name (idents (x :: ys)) → ExceptFor g name t t →
      Avoids name (idents ys) ∧ ExceptFor g name t₁ t₁)
    (hUnused : d.IsScalar → Avoids d.id.name (idents xs) → ExceptFor g d.id.name t t →
      errors₁ = [] ∧ ∃ u, Yields (walk xs) t xs' u errors₂ ∧ ExceptFor g d.id.name t₂ u)
    (hBefore : ∀ ys, removals (x :: ys) = ⟨d, ys⟩ :: (removals ys).map (.map (x :: ·)))
    (hAfter : ∀ ys, removals (x' :: ys) = ⟨d', ys⟩ :: (removals ys).map (.map (x' :: ·))) :
    Tolerates g walk idents removals t (x :: xs) (x' :: xs') t₂ (errors₁ ++ errors₂) where
  yields := hWalk xs xs' t₂ errors₂ h.yields
  stack := h.stack.trans hStack
  length := Nat.le_trans hLength h.length
  harmless := by
    rw [hBefore, hAfter]
    -- the variable itself, and then the removals from the rest of the row
    refine .cons (fun hScalar hNames hFree => ?_) ?_
    · obtain ⟨rfl, hRest⟩ := hUnused hScalar hNames hFree
      exact hRest
    · exact harmless_map h.harmless (errors₁ ++ ·) hEnter
        fun _ _ _ u _ _ hYields hExcept => ⟨u, hWalk _ _ _ _ hYields, hExcept⟩

end Tolerates

/-! ## Rows of variables and fields -/

/-- The variables of a block, or the fields of a struct, in the scope `k`. -/
theorem varDecls_tolerated {step : VarDecl → Resolve VarDecl} {stack : List ScopeId}
    (hStep : ∀ d t, t.stack = stack → ∃ d' t' errors, Yields (step d) t d' t' errors ∧
      d.Outcome t k d' t' errors)
    (hBlind : ∀ name d, Avoids name d.idents → Blind g name (step d)) (hBase : g ≤ k)
    (ds : List VarDecl) (t : SymbolTable) (hStack : t.stack = stack) (hk : k < t.store.length) :
    ∃ ds' t' errors, Tolerates g (fun ds => ds.mapM step) (List.flatMap VarDecl.idents)
      varRemovals t ds ds' t' errors := by
  induction ds generalizing t with
  | nil => exact ⟨[], t, [], .leaf (Yields.pure [] t) rfl rfl⟩
  | cons d ds ih =>
    obtain ⟨d', t₁, errors₁, hYields, hOutcome⟩ := hStep d t hStack
    have hAdds := hOutcome.adds hk
    obtain ⟨ds', t₂, errors₂, hRest⟩ :=
      ih t₁ (hAdds.stack.trans hStack) (Nat.lt_of_lt_of_le hk hAdds.length)
    refine ⟨d' :: ds', t₂, errors₁ ++ errors₂, hRest.cons hAdds.stack hAdds.length
      (fun _ _ _ _ hYs => hYields.mapM_cons hYs) (fun name ys hNames hFree => ?_)
      (fun hScalar hNames hFree => ?_) (fun _ => rfl) (fun _ => rfl)⟩
    · obtain ⟨hHead, hTail⟩ := Avoids.append.mp hNames
      exact ⟨hTail, (hBlind name d hHead).free hYields hFree⟩
    -- the rest of the row does not see the variable
    · obtain ⟨hSilent, hExcept⟩ := hOutcome.unused hScalar hBase hk hFree
      have hRestBlind := Blind.mapM fun e he => hBlind _ e (avoids_flatMap hNames e he)
      exact ⟨hSilent, hRestBlind.yields hRest.yields hExcept⟩

/-- The variables of a function body. -/
theorem resolveLocals_tolerated (seen : List String) (ds : List VarDecl) (t : SymbolTable)
    (hStack : t.stack = k :: rest) (hBase : g ≤ k) (hk : k < t.store.length) :
    ∃ ds' t' errors, Tolerates g (resolveLocals seen) (List.flatMap VarDecl.idents) varRemovals t
      ds ds' t' errors := by
  induction ds generalizing t seen with
  | nil => exact ⟨[], t, [], .leaf (Yields.pure [] t) rfl rfl⟩
  | cons d ds ih =>
    by_cases hRepeats :
        (seen.contains d.id.name && (t.lookupLocal d.id.name).any Symbol.isFormal) = true
    · obtain ⟨ds', t', errors, hRest⟩ := ih (d.id.name :: seen) t hStack hk
      refine ⟨d :: ds', t', _, hRest.cons rfl (Nat.le_refl _)
        (fun _ _ _ _ hYs => resolveLocals_repeated hRepeats hYs)
        (fun name ys hNames hFree => ⟨(Avoids.append.mp hNames).2, hFree⟩)
        (fun _ _ hFree => ?_) (fun _ => rfl) (fun _ => rfl)⟩
      -- a name that is bound nowhere is not that of a formal
      have hFormal := (Bool.and_eq_true_iff.mp hRepeats).2
      rw [lookupLocal, hStack, List.head?_cons, Option.bind_some, hFree.free k hBase] at hFormal
      cases hFormal
    · obtain ⟨d', t₁, errors₁, hHead, hOutcome⟩ := d.resolve_yields hStack
      have hAdds := hOutcome.adds hk
      have hStack₁ := hAdds.stack.trans hStack
      have hk₁ := Nat.lt_of_lt_of_le hk hAdds.length
      obtain ⟨ds', t₂, errors₂, hRest⟩ := ih (d.id.name :: seen) t₁ hStack₁ hk₁
      refine ⟨d' :: ds', t₂, _, hRest.cons hAdds.stack hAdds.length
        (fun _ _ _ _ hYs => resolveLocals_resolved hRepeats hHead hYs)
        (fun name ys hNames hFree => ?_) (fun hScalar hNames hFree => ?_)
        (fun _ => rfl) (fun _ => rfl)⟩
      · obtain ⟨hName, hTail⟩ := Avoids.append.mp hNames
        exact ⟨hTail, (d.resolve_blind hName).free hHead hFree⟩
      -- the name of a variable can be forgotten, and then the rest does not see its binding
      · obtain ⟨hSilent, hExcept⟩ := hOutcome.unused hScalar hBase hk hFree
        have hForgotten := resolveLocals_forget hStack₁ hk₁ (fun hFormal => ?_) hRest.yields
        · exact ⟨hSilent, (resolveLocals_blind seen hNames).yields hForgotten hExcept⟩
        · rw [hOutcome.formals hk, hFree.free k hBase] at hFormal
          cases hFormal

/-! ## Statements -/

/-- A scope around a walk changes nothing about it. -/
theorem Tolerates.inScope {walk : α → Resolve α} {idents : α → List Ident}
    {removals : α → List (Removal α)} {x x' : α}
    (h : Tolerates g walk idents removals t.push.2 x x' t' errors) :
    Tolerates g (fun x => inScope (walk x)) idents removals t x x' { t' with stack := t.stack }
      errors where
  yields := inScope_yields h.yields h.stack
  stack := rfl
  length := length_le_of_push h.length
  harmless := h.harmless.imp fun r r' hHarmless hScalar hNames hFree => by
    obtain ⟨u, hYields, hExcept⟩ := hHarmless hScalar hNames hFree.push
    exact ⟨_, inScope_yields hYields (hExcept.stack.trans h.stack),
      hExcept.with_stack hFree.opened hFree.made⟩

/-- A block without the name is blind for it. -/
theorem Block.resolve_blind {name : String} {b : Block Stmt} (hNames : Avoids name b.idents) :
    Blind g name b.resolve := by
  obtain ⟨hDecls, hStmts⟩ := Avoids.append.mp hNames
  exact inBlock_blind hDecls (Stmt.resolveAll_blind b.stmts hStmts)

theorem Block.resolve_tolerated {stmts : List Stmt}
    (hStmts : ∀ t, t.Sound → g ≤ t.store.length → ∃ stmts' t' errors,
      Tolerates g Stmt.resolveAll Stmt.identsAll Stmt.removalsAll t stmts stmts' t' errors)
    (decls : List VarDecl) (t : SymbolTable) (hSound : t.Sound) (hBase : g ≤ t.store.length) :
    ∃ b' t' errors,
      Tolerates g Block.resolve Block.idents Block.removals t ⟨decls, stmts⟩ b' t' errors := by
  have hPushed := hSound.push
  obtain ⟨decls', t₁, errors₁, hDecls⟩ := varDecls_tolerated
    (fun d t hStack => VarDecl.resolve_yields hStack d) (fun _ d => d.resolve_blind) hBase decls
    t.push.2 (push_stack t) (hPushed.innermost_made (push_stack t))
  -- the scopes that have been made grow in number
  have hBase₁ : g ≤ t₁.store.length := Nat.le_trans hBase (length_le_of_push hDecls.length)
  obtain ⟨stmts', t₂, errors₂, hRest⟩ := hStmts t₁ (hDecls.sound hPushed) hBase₁
  have hInner : Tolerates g
      (fun b => b.decls.mapM VarDecl.resolve >>= fun decls =>
        Stmt.resolveAll b.stmts >>= fun stmts => pure ⟨decls, stmts⟩)
      Block.idents Block.removals t.push.2 ⟨decls, stmts⟩ ⟨decls', stmts'⟩ t₂
      ([] ++ (errors₁ ++ errors₂)) :=
    hDecls.both hRest Block.mk Block.mk [] (fun _ hNames => varDecls_blind hNames)
      (fun _ hNames => Stmt.resolveAll_blind stmts hNames)
      (fun _ decls' _ _ _ _ _ _ hDecls hStmts => hDecls.bind (hStmts.bind_pure (Block.mk decls')))
      (fun _ _ _ hNames => Avoids.append.mp hNames) (fun _ _ => rfl) (fun _ _ => rfl)
  exact ⟨_, _, _, hInner.inScope⟩

/-- A condition and the block behind it; `make` puts them together. -/
theorem Tolerates.guarded {b b' : Block Stmt} {cond cond' : Expr}
    (h : Tolerates g Block.resolve Block.idents Block.removals t b b' t' errors)
    (make : Expr → Block Stmt → Stmt) (before : List Diagnostic)
    (hWalk : ∀ b b' u errors, Yields b.resolve t b' u errors →
      Yields (make cond b).resolve t (make cond' b') u (before ++ errors))
    (hIdents : ∀ b, (make cond b).idents = cond.idents ++ b.idents)
    (hRemovals : ∀ cond b, (make cond b).removals = b.removals.map (.map (make cond))) :
    Tolerates g Stmt.resolve Stmt.idents Stmt.removals t (make cond b) (make cond' b') t'
      (before ++ errors) := by
  -- a condition in front of a block has no declarations, so all removals are those of the block
  refine h.wrap (make cond) (make cond') before id (fun b b' u errors _ => hWalk b b' u errors)
    (fun name b hNames hFree => ?_) (fun _ _ _ hExcept => hExcept) h.stack h.length
    (hRemovals cond) (hRemovals cond')
  rw [hIdents] at hNames
  exact ⟨(Avoids.append.mp hNames).2, hFree⟩

mutual

/-- The walk over a statement tolerates one declaration more in its blocks. -/
theorem Stmt.resolve_tolerated : (s : Stmt) → (t : SymbolTable) → t.Sound → g ≤ t.store.length →
    ∃ s' t' errors, Tolerates g Stmt.resolve Stmt.idents Stmt.removals t s s' t' errors
  -- a statement without declarations has no removals
  | .assign target value, t, _, _ =>
    ⟨_, t, _, .leaf (Stmt.assign_yields target value t) rfl rfl⟩
  | .increment target, t, _, _ => ⟨_, t, _, .leaf (Stmt.increment_yields target t) rfl rfl⟩
  | .decrement target, t, _, _ => ⟨_, t, _, .leaf (Stmt.decrement_yields target t) rfl rfl⟩
  | .read target, t, _, _ => ⟨_, t, _, .leaf (Stmt.read_yields target t) rfl rfl⟩
  | .write value, t, _, _ => ⟨_, t, _, .leaf (Stmt.write_yields value t) rfl rfl⟩
  | .call callee args, t, _, _ => ⟨_, t, _, .leaf (Stmt.call_yields callee args t) rfl rfl⟩
  | .ret none, t, _, _ => ⟨_, t, _, .leaf (Stmt.retNone_yields t) rfl rfl⟩
  | .ret (some value), t, _, _ => ⟨_, t, _, .leaf (Stmt.retSome_yields value t) rfl rfl⟩
  | .ifThen cond ⟨decls, stmts⟩, t, hSound, hBase => by
    obtain ⟨body', t', errors, hBody⟩ :=
      Block.resolve_tolerated (Stmt.resolveAll_tolerated stmts) decls t hSound hBase
    exact ⟨.ifThen (cond.annotate t) body', t', cond.diagnose t ++ errors,
      hBody.guarded .ifThen _ (fun _ _ _ _ => Stmt.ifThen_yields) (Stmt.idents_ifThen cond)
        fun _ _ => rfl⟩
  -- the blocks are walked one after the other, so the second one may find what the first one has
  -- made
  | .ifElse cond ⟨decls, stmts⟩ ⟨elseDecls, elseStmts⟩, t, hSound, hBase => by
    obtain ⟨body', t₁, errors₁, hBody⟩ :=
      Block.resolve_tolerated (Stmt.resolveAll_tolerated stmts) decls t hSound hBase
    obtain ⟨otherwise', t₂, errors₂, hOtherwise⟩ :=
      Block.resolve_tolerated (Stmt.resolveAll_tolerated elseStmts) elseDecls t₁
        (hBody.sound hSound) (Nat.le_trans hBase hBody.length)
    refine ⟨.ifElse (cond.annotate t) body' otherwise', t₂, cond.diagnose t ++ (errors₁ ++ errors₂),
      hBody.both hOtherwise (Stmt.ifElse cond) (Stmt.ifElse (cond.annotate t)) (cond.diagnose t)
        (fun _ hNames => Block.resolve_blind hNames) (fun _ hNames => Block.resolve_blind hNames)
        (fun _ _ _ _ _ _ _ _ => Stmt.ifElse_yields) (fun name body otherwise hNames => ?_)
        (fun _ _ => rfl) (fun _ _ => rfl)⟩
    rw [Stmt.idents_ifElse, List.append_assoc] at hNames
    exact Avoids.append.mp (Avoids.append.mp hNames).2
  | .loop cond ⟨decls, stmts⟩, t, hSound, hBase => by
    obtain ⟨body', t', errors, hBody⟩ :=
      Block.resolve_tolerated (Stmt.resolveAll_tolerated stmts) decls t hSound hBase
    exact ⟨.loop (cond.annotate t) body', t', cond.diagnose t ++ errors,
      hBody.guarded .loop _ (fun _ _ _ _ => Stmt.loop_yields) (Stmt.idents_loop cond)
        fun _ _ => rfl⟩

theorem Stmt.resolveAll_tolerated : (ss : List Stmt) → (t : SymbolTable) → t.Sound →
    g ≤ t.store.length → ∃ ss' t' errors,
      Tolerates g Stmt.resolveAll Stmt.identsAll Stmt.removalsAll t ss ss' t' errors
  -- without statements the table stays as it is
  | [], t, _, _ => ⟨[], t, [], .leaf (Yields.pure [] t) rfl rfl⟩
  | s :: ss, t, hSound, hBase => by
    obtain ⟨s', t₁, errors₁, hHead⟩ := Stmt.resolve_tolerated s t hSound hBase
    obtain ⟨ss', t₂, errors₂, hRest⟩ := Stmt.resolveAll_tolerated ss t₁ (hHead.sound hSound)
      (Nat.le_trans hBase hHead.length)
    refine ⟨s' :: ss', t₂, errors₁ ++ errors₂, hHead.both hRest List.cons List.cons []
      (fun _ => Stmt.resolve_blind s) (fun _ => Stmt.resolveAll_blind ss)
      (fun s s' ss ss' _ _ _ _ hS hSs => ?_) (fun _ _ _ hNames => Avoids.append.mp hNames)
      (fun _ _ => rfl) (fun _ _ => rfl)⟩
    rw [Stmt.resolveAll]
    exact hS.bind (hSs.bind_pure (s' :: ·))

end

/-! ## Functions and structs -/

/-- The walk over a function tolerates one variable more in its body. -/
theorem FuncDecl.resolve_tolerated (f : FuncDecl) (t : SymbolTable) (hSound : t.Sound)
    (hBase : g ≤ t.store.length) : ∃ f' t' errors,
      Tolerates g FuncDecl.resolve FuncDecl.idents FuncDecl.removals t f f' t' errors := by
  obtain ⟨k, rest, hStack⟩ := hSound.exists_innermost
  obtain ⟨id', t₁, errors₁, hName, hDeclares⟩ :=
    declareHere_yields hStack f.id (.function f.result.name f.paramTypes)
  have hAdds := hDeclares.adds (hSound.innermost_made hStack)
  have hBase₁ : g ≤ t₁.store.length := Nat.le_trans hBase hAdds.length
  have hPushed := (hAdds.toTouches.sound hSound).push
  obtain ⟨formals, t₂, errors₂, hFormals, hTouches⟩ :=
    formals_fill f.formals t₁.push.2 _ _ hPushed (push_stack t₁)
  have hInner := hTouches.sound hPushed
  -- the body, in the scope of the formals
  have hStack₂ := hTouches.stack.trans (push_stack t₁)
  obtain ⟨decls, t₃, errors₃, hDecls⟩ := resolveLocals_tolerated [] f.body.decls t₂ hStack₂ hBase₁
    (hInner.innermost_made hStack₂)
  have hBase₃ : g ≤ t₃.store.length :=
    Nat.le_trans hBase₁ (length_le_of_push (Nat.le_trans hTouches.length hDecls.length))
  obtain ⟨stmts, t₄, errors₄, hStmts⟩ :=
    Stmt.resolveAll_tolerated f.body.stmts t₃ (hDecls.sound hInner) hBase₃
  have hBody : Tolerates g resolveBody Block.idents Block.removals t₂ f.body ⟨decls, stmts⟩ t₄
      ([] ++ (errors₃ ++ errors₄)) :=
    hDecls.both hStmts Block.mk Block.mk [] (fun _ hNames => resolveLocals_blind [] hNames)
      (fun _ hNames => Stmt.resolveAll_blind _ hNames)
      (fun _ decls _ _ _ _ _ _ hDecls hStmts => hDecls.bind (hStmts.bind_pure (Block.mk decls)))
      (fun _ _ _ hNames => Avoids.append.mp hNames) (fun _ _ => rfl) (fun _ _ => rfl)
  have hClosed : t₄.stack = t₁.push.2.stack := hBody.stack.trans hTouches.stack
  refine ⟨⟨f.result, id', formals, ⟨decls, stmts⟩⟩, { t₄ with stack := t₁.stack }, _,
    hBody.wrap (fun body => { f with body := body }) (FuncDecl.mk f.result id' formals)
      (errors₁ ++ errors₂) (fun u => { u with stack := t₁.stack })
      (fun body body' u errors hSame hYields => ?_) (fun name body hNames hFree => ?_)
      (fun name u hFree hExcept => ?_) hAdds.stack ?_ (fun _ => rfl) (fun _ => rfl)⟩
  · rw [List.append_assoc]
    exact hName.bind (inScope_yields (hFormals.bind (hYields.bind_pure _)) (hSame.trans hClosed))
  -- the signature does not bind the name
  · obtain ⟨hSignature, hBodyNames⟩ := Avoids.append.mp hNames
    obtain ⟨hHead, hFormalNames⟩ := Avoids.append.mp hSignature
    have hId := (Avoids.append.mp hHead).2 f.id List.mem_cons_self
    have hFree₁ := (declareHere_blind hId _).free hName hFree
    exact ⟨hBodyNames, (formals_blind hFormalNames).free hFormals hFree₁.push⟩
  · refine hExcept.with_stack (hAdds.stack ▸ hFree.opened) ?_
    rw [hAdds.stack]
    exact hFree.made
  · exact Nat.le_trans hAdds.length (length_le_of_push (Nat.le_trans hTouches.length hBody.length))

/-- The walk over a struct tolerates one field more. -/
theorem StructDecl.resolve_tolerated (s : StructDecl) (t : SymbolTable) (hSound : t.Sound)
    (hBase : g ≤ t.store.length) : ∃ s' t' errors,
      Tolerates g StructDecl.resolve StructDecl.idents StructDecl.removals t s s' t' errors := by
  obtain ⟨k, rest, hStack⟩ := hSound.exists_innermost
  obtain ⟨id', t₁, errors₁, hName, hDeclares⟩ :=
    declareHere_yields (t := t.newScope.2) hStack s.id (.structDecl t.store.length)
  have hk : k < t.newScope.2.store.length :=
    newScope_length t ▸ Nat.lt_succ_of_lt (hSound.innermost_made hStack)
  have hAdds := hDeclares.adds hk
  have hLength : t.store.length < t₁.store.length := by
    rw [hDeclares.length_eq, newScope_length]
    exact Nat.lt_succ_self _
  obtain ⟨fields, t₂, errors₂, hFields⟩ := varDecls_tolerated
    (fun d t _ => d.resolveIn_yields _ t) (fun _ d hNames => d.resolveIn_blind hNames _) hBase
    s.fields t₁ rfl hLength
  refine ⟨⟨id', fields⟩, t₂, _,
    hFields.wrap (StructDecl.mk s.id) (StructDecl.mk id') errors₁ (fun u => u)
      (fun fields fields' u errors _ hYields => StructDecl.resolve_yields hName hYields)
      (fun name fields hNames hFree => ?_) (fun _ _ _ hExcept => hExcept)
      (hFields.stack.trans hAdds.stack) ?_ (fun _ => rfl) (fun _ => rfl)⟩
  -- the name of the struct is another one, so declaring it makes no difference
  · obtain ⟨hId, hFieldNames⟩ := Avoids.cons.mp hNames
    exact ⟨hFieldNames, (declareHere_blind hId _).free hName hFree.newScope⟩
  · exact Nat.le_trans (Nat.le_of_lt hLength) hFields.length

/-! ## Programs -/

/-- The declarations of the top level. -/
theorem decls_tolerated (ds : List Decl) (t : SymbolTable) (hSound : t.Sound)
    (hBase : ∀ k ∈ t.stack, g ≤ k) : ∃ ds' t' errors,
      Tolerates g (fun ds => ds.mapM Decl.resolve) (List.flatMap Decl.idents) declRemovals t ds ds'
        t' errors := by
  induction ds generalizing t with
  | nil => exact ⟨[], t, [], .leaf (Yields.pure [] t) rfl rfl⟩
  | cons d ds ih =>
    obtain ⟨k, rest, hStack⟩ := hSound.exists_innermost
    have hk := hSound.innermost_made hStack
    have hg : g ≤ k := hBase k (hStack ▸ List.mem_cons_self)
    -- the declarations behind the new one do not have its name, so they are blind for it
    have hRestBlind : ∀ name, Avoids name (ds.flatMap Decl.idents) →
        Blind g name (ds.mapM Decl.resolve) :=
      fun name hNames => Blind.mapM fun e he => e.resolve_blind (avoids_flatMap hNames e he)
    cases d with
    | var d =>
      obtain ⟨d', t₁, errors₁, hYields, hOutcome⟩ := d.resolve_yields hStack
      have hAdds := hOutcome.adds hk
      obtain ⟨ds', t₂, errors₂, hRest⟩ :=
        ih t₁ (hAdds.toTouches.sound hSound) (hAdds.stack ▸ hBase)
      have hHead : Yields (Decl.var d).resolve t (.var d') t₁ errors₁ := hYields.map Decl.var
      refine ⟨.var d' :: ds', t₂, errors₁ ++ errors₂, hRest.cons hAdds.stack hAdds.length
        (fun _ _ _ _ hYs => hHead.mapM_cons hYs) (fun name ys hNames hFree => ?_)
        (fun hScalar hNames hFree => ?_) (fun _ => rfl) (fun _ => rfl)⟩
      · obtain ⟨hName, hTail⟩ := Avoids.append.mp hNames
        exact ⟨hTail, (d.resolve_blind hName).free hYields hFree⟩
      · obtain ⟨hSilent, hExcept⟩ := hOutcome.unused hScalar hg hk hFree
        exact ⟨hSilent, (hRestBlind _ hNames).yields hRest.yields hExcept⟩
    | func f =>
      obtain ⟨f', t₁, errors₁, hHead⟩ :=
        f.resolve_tolerated t hSound (Nat.le_of_lt (Nat.lt_of_le_of_lt hg hk))
      obtain ⟨ds', t₂, errors₂, hRest⟩ := ih t₁ (hHead.sound hSound) (hHead.stack ▸ hBase)
      refine ⟨.func f' :: ds', t₂, errors₁ ++ errors₂,
        hHead.both hRest (fun f ds => .func f :: ds) (fun f ds => .func f :: ds) []
          (fun _ hNames => f.resolve_blind hNames) hRestBlind
          (fun f f' _ _ u _ errors _ hYields hYs => ?_)
          (fun _ _ _ hNames => Avoids.append.mp hNames) (fun _ _ => rfl) (fun _ _ => rfl)⟩
      have hDecl : Yields (Decl.func f).resolve t (.func f') u errors := hYields.map Decl.func
      exact hDecl.mapM_cons hYs
    | struct s =>
      obtain ⟨s', t₁, errors₁, hHead⟩ :=
        s.resolve_tolerated t hSound (Nat.le_of_lt (Nat.lt_of_le_of_lt hg hk))
      obtain ⟨ds', t₂, errors₂, hRest⟩ := ih t₁ (hHead.sound hSound) (hHead.stack ▸ hBase)
      refine ⟨.struct s' :: ds', t₂, errors₁ ++ errors₂,
        hHead.both hRest (fun s ds => .struct s :: ds) (fun s ds => .struct s :: ds) []
          (fun _ hNames => s.resolve_blind hNames) hRestBlind
          (fun s s' _ _ u _ errors _ hYields hYs => ?_)
          (fun _ _ _ hNames => Avoids.append.mp hNames) (fun _ _ => rfl) (fun _ _ => rfl)⟩
      have hDecl : Yields (Decl.struct s).resolve t (.struct s') u errors :=
        hYields.map Decl.struct
      exact hDecl.mapM_cons hYs

/-- **Unused declarations are harmless.** Take any program `p` and insert a variable or a field of a
basic type anywhere among its declarations, as the `i`-th one of the new program `p'`. If no
identifier of `p` has the name of the new one, the analyses of both programs do not fail and report
the same errors in the same order. They come to the same tree but for the new declaration, so they
put the same symbols on all identifiers of `p`, and leave the same ones without. -/
theorem unused_declarations_are_harmless (a : Analyzer) {p p' : Program} {d : VarDecl} {i : Nat}
    (hInserted : p'.removals[i]? = some ⟨d, p⟩) (hScalar : d.IsScalar)
    (hUnused : ∀ id ∈ p.idents, id.name ≠ d.id.name) :
    ∃ q b q' b' d', a.analyze p = .ok (q, b) ∧ a.analyze p' = .ok (q', b') ∧
      b'.errors = b.errors ∧ q'.removals[i]? = some ⟨d', q⟩ ∧
      ∃ before after, q'.idents = before ++ d'.idents ++ after ∧ q.idents = before ++ after := by
  obtain ⟨decls, t, errors, hTolerates⟩ :=
    decls_tolerated p'.decls a.table.restart (.restart a.table) fun k hk =>
      (ExceptFor.restart a.table d.id.name).made k hk
  obtain ⟨b', hAnalyze', -, rfl⟩ := analyze_of_yields hTolerates.yields
  -- the removals from the program and from the answer belong together, so the `i`-th ones do
  rw [Program.removals, List.getElem?_map, Option.map_eq_some_iff] at hInserted
  obtain ⟨r, hRemoval, hRemoved⟩ := hInserted
  obtain ⟨hLength, hAt⟩ := List.forall₂_iff_get.mp hTolerates.harmless
  obtain ⟨hMade, rfl⟩ := List.getElem?_eq_some_iff.mp hRemoval
  have hMade' := hLength ▸ hMade
  cases hRemoved
  obtain ⟨u, hYields, -⟩ := hAt i hMade hMade' hScalar hUnused (.restart a.table _)
  obtain ⟨b, hAnalyze, -, hErrors⟩ := analyze_of_yields (p := ⟨_⟩) hYields
  have hAnswer : (Program.mk decls).removals[i]? =
      some ⟨((declRemovals decls).get ⟨i, hMade'⟩).removed,
        ⟨((declRemovals decls).get ⟨i, hMade'⟩).left⟩⟩ := by
    rw [Program.removals, List.getElem?_map, List.getElem?_eq_getElem hMade']
    rfl
  exact ⟨_, b, _, b', _, hAnalyze, hAnalyze', hErrors.symm, hAnswer,
    Program.removals_cut _ _ (List.mem_of_getElem? hAnswer)⟩

/-- `integer a. void f[] [ if (TRUE) { boolean b. a = 1. } g(). ]`, with an undeclared function and
a variable that is never used. -/
def spareProgram (inside : List VarDecl) : Program :=
  ⟨[.var ⟨.integer, ⟨⟨1, 9⟩, "a", none⟩, false⟩,
    .func
      { result := .void
        id := ⟨⟨2, 6⟩, "f", none⟩
        body := ⟨[],
          [.ifThen (.trueLit ⟨3, 5⟩)
            ⟨inside, [.assign (.var ⟨⟨5, 3⟩, "a", none⟩) (.intLit ⟨5, 7⟩ 1)]⟩,
            .call ⟨⟨7, 1⟩, "g", none⟩ []]⟩ }]⟩

/-- The hypotheses can be met: a variable of a block, in a program with an error. -/
theorem spareProgram_unused_harmless :
    ((spareProgram [⟨.boolean, ⟨⟨4, 11⟩, "b", none⟩, false⟩]).removals[1]? =
        some ⟨⟨.boolean, ⟨⟨4, 11⟩, "b", none⟩, false⟩, spareProgram []⟩ ∧
      ∀ id ∈ (spareProgram []).idents, id.name ≠ "b") ∧
    ∃ q b q' b' d', Analyzer.new.analyze (spareProgram []) = .ok (q, b) ∧
      Analyzer.new.analyze (spareProgram [⟨.boolean, ⟨⟨4, 11⟩, "b", none⟩, false⟩]) =
        .ok (q', b') ∧
      b'.errors = b.errors ∧ q'.removals[1]? = some ⟨d', q⟩ ∧
      ∃ before after, q'.idents = before ++ d'.idents ++ after ∧ q.idents = before ++ after := by
  have hInserted : (spareProgram [⟨.boolean, ⟨⟨4, 11⟩, "b", none⟩, false⟩]).removals[1]? =
      some ⟨⟨.boolean, ⟨⟨4, 11⟩, "b", none⟩, false⟩, spareProgram []⟩ := rfl
  have hUnused : ∀ id ∈ (spareProgram []).idents, id.name ≠ "b" := by decide
  exact ⟨⟨hInserted, hUnused⟩,
    unused_declarations_are_harmless Analyzer.new hInserted (.inl rfl) hUnused⟩

end NameResolution
