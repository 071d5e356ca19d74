import NameResolution.Proofs.Analysis.Discipline
import NameResolution.Proofs.Analysis.Failures
import NameResolution.Proofs.Tree.Removal

/-!
# Inert declarations — what a refused variable is to the rest of its program

A variable or a field that is refused binds nothing. So nothing else can depend on it: without it,
an analysis makes the same of all that is left, and of the errors only its own is missing.

There is one place where a refused variable is remembered. The variables of a function body are
compared with the names of those before, refused ones among them. But only the names of formals
matter there, and of these the first one is never refused.

* `VarDecl.Refused`, `VarDecl.Drops` — the error of a refused declaration, and the others.
* `Spares` — a walk over a tree against the walks over the same tree without one declaration.
* `refused_declarations_are_inert` — a whole analysis.
-/

namespace NameResolution

open Analysis SymbolTable

variable {α β γ : Type} {t t' t₁ t₂ : SymbolTable} {k : ScopeId} {rest : List ScopeId}
  {errors errors' before errors₁ errors₂ : List Diagnostic}

/-! ## Refusals -/

/-- The errors that can refuse a variable or a field: at its name, or at the name of its type. -/
inductive VarDecl.Refused (d : VarDecl) : Diagnostic → Prop where
  | repeated : Refused d (.located .multiplyDeclared d.id.pos)
  | void (hType : d.type = .void) : Refused d (.located .declaredVoid d.id.pos)
  | noStruct {structId : Ident} (hType : d.type = .struct structId) :
    Refused d (.located .invalidStructType structId.pos)

/-- What is refused keeps its identifier, changes nothing, and has one error. -/
theorem VarDecl.Outcome.refused {d d' : VarDecl} (h : d.Outcome t k d' t' errors)
    (hUnbound : d'.id.symbol? = none) :
    d'.id = d.id ∧ t' = t ∧ ∃ e, errors = [e] ∧ d'.Refused e := by
  cases h with
  | formal => cases hUnbound
  | void _ hType => exact ⟨rfl, rfl, _, rfl, .void hType⟩
  | noStruct _ hType => exact ⟨rfl, rfl, _, rfl, .noStruct hType⟩
  | typed _ _ hDeclares =>
    cases hDeclares with
    | taken => exact ⟨rfl, rfl, _, rfl, .repeated⟩
    | bound => cases hUnbound

/-- The same errors without one that refuses the declaration. -/
def VarDecl.Drops (d : VarDecl) (errors errors' : List Diagnostic) : Prop :=
  ∃ before e after, d.Refused e ∧ errors = before ++ e :: after ∧ errors' = before ++ after

namespace VarDecl.Drops

variable {d : VarDecl}

/-- More errors in front do not matter. -/
theorem behind (h : d.Drops errors errors') (before : List Diagnostic) :
    d.Drops (before ++ errors) (before ++ errors') := by
  obtain ⟨front, e, after, hRefused, rfl, rfl⟩ := h
  exact ⟨before ++ front, e, after, hRefused, (List.append_assoc _ _ _).symm,
    (List.append_assoc _ _ _).symm⟩

/-- More errors behind do not matter. -/
theorem inFront (h : d.Drops errors errors') (after : List Diagnostic) :
    d.Drops (errors ++ after) (errors' ++ after) := by
  obtain ⟨before, e, back, hRefused, rfl, rfl⟩ := h
  refine ⟨before, e, back ++ after, hRefused, ?_, List.append_assoc _ _ _⟩
  rw [List.append_assoc, List.cons_append]

end VarDecl.Drops

/-! ## Walks that spare what is refused -/

/-- A removal from a tree and the same removal from what a walk made of the tree: if the declaration
was refused, the walk makes the one of the other and misses only the error of the declaration. -/
def Inert (walk : α → Resolve α) (t t' : SymbolTable) (errors : List Diagnostic)
    (r r' : Removal α) : Prop :=
  r'.removed.id.symbol? = none → r'.removed.id = r.removed.id ∧
    ∃ errors', Yields (walk r.left) t r'.left t' errors' ∧ r'.removed.Drops errors errors'

/-- The walk makes `x'` of the tree `x`, and every removal from it is inert. -/
structure Spares (walk : α → Resolve α) (removals : α → List (Removal α)) (t : SymbolTable)
    (x x' : α) (t' : SymbolTable) (errors : List Diagnostic) : Prop where
  yields : Yields (walk x) t x' t' errors
  stack : t'.stack = t.stack
  length : t.store.length ≤ t'.store.length
  inert : List.Forall₂ (Inert walk t t' errors) (removals x) (removals x')

namespace Spares

variable {walk : α → Resolve α} {walk₁ : β → Resolve β} {walk₂ : γ → Resolve γ}
  {removals : α → List (Removal α)} {removals₁ : β → List (Removal β)}
  {removals₂ : γ → List (Removal γ)} {x x' : α} {y y' : β} {z z' : γ}

/-- A tree without declarations. -/
theorem leaf (h : Yields (walk x) t x' t errors) (hBefore : removals x = [])
    (hAfter : removals x' = []) : Spares walk removals t x x' t errors where
  yields := h
  stack := rfl
  length := Nat.le_refl _
  inert := by
    rw [hBefore, hAfter]
    exact .nil

/-- A walk that spares declarations keeps the table sound. -/
theorem sound (h : Spares walk removals t x x' t' errors) (hSound : t.Sound) : t'.Sound :=
  hSound.of_stack h.stack h.length

/-- Removals from a part of a tree, as removals from the tree. The walk over the tree does with each
part what the walk over the part does, and has other errors beside those of the part. -/
theorem inert_map {rs rs' : List (Removal β)} {make make' : β → α}
    (h : List.Forall₂ (Inert walk₁ t₁ t₂ errors) rs rs') (among : List Diagnostic → List Diagnostic)
    (hWalk : ∀ y y' errors, Yields (walk₁ y) t₁ y' t₂ errors →
      Yields (walk (make y)) t (make' y') t' (among errors))
    (hAmong : ∀ (d : VarDecl) errors', d.Drops errors errors' →
      d.Drops (among errors) (among errors')) :
    List.Forall₂ (Inert walk t t' (among errors)) (rs.map (.map make)) (rs'.map (.map make')) := by
  rw [List.forall₂_map_left_iff, List.forall₂_map_right_iff]
  refine h.imp fun r r' hInert hUnbound => ?_
  obtain ⟨hSame, errors', hYields, hDrops⟩ := hInert hUnbound
  exact ⟨hSame, among errors', hWalk _ _ _ hYields, hAmong _ _ hDrops⟩

/-- A walk over a larger tree, of which only the part `y` declares something. -/
theorem wrap (h : Spares walk₁ removals₁ t₁ y y' t₂ errors) (make make' : β → α)
    (before : List Diagnostic)
    (hWalk : ∀ y y' errors, Yields (walk₁ y) t₁ y' t₂ errors →
      Yields (walk (make y)) t (make' y') t' (before ++ errors))
    (hStack : t'.stack = t.stack) (hLength : t.store.length ≤ t'.store.length)
    (hBefore : ∀ y, removals (make y) = (removals₁ y).map (.map make))
    (hAfter : ∀ y, removals (make' y) = (removals₁ y).map (.map make')) :
    Spares walk removals t (make y) (make' y') t' (before ++ errors) where
  yields := hWalk y y' errors h.yields
  stack := hStack
  length := hLength
  inert := by
    -- the removals of the larger tree are those of its part, built up again
    rw [hBefore, hAfter]
    exact inert_map h.inert (before ++ ·) hWalk fun _ _ hDrops => hDrops.behind before

/-- A walk over a tree with two parts that declare something, one after the other. -/
theorem both (h₁ : Spares walk₁ removals₁ t y y' t₁ errors₁)
    (h₂ : Spares walk₂ removals₂ t₁ z z' t₂ errors₂) (make make' : β → γ → α)
    (before : List Diagnostic)
    (hWalk : ∀ y y' z z' errors₁ errors₂, Yields (walk₁ y) t y' t₁ errors₁ →
      Yields (walk₂ z) t₁ z' t₂ errors₂ →
        Yields (walk (make y z)) t (make' y' z') t₂ (before ++ (errors₁ ++ errors₂)))
    (hBefore : ∀ y z, removals (make y z) = eitherRemovals make y (removals₁ y) z (removals₂ z))
    (hAfter : ∀ y z, removals (make' y z) = eitherRemovals make' y (removals₁ y) z (removals₂ z)) :
    Spares walk removals t (make y z) (make' y' z') t₂ (before ++ (errors₁ ++ errors₂)) where
  yields := hWalk _ _ _ _ _ _ h₁.yields h₂.yields
  stack := h₂.stack.trans h₁.stack
  length := Nat.le_trans h₁.length h₂.length
  inert := by
    rw [hBefore, hAfter]
    -- the declaration is in one part, and the other one is as it was
    refine List.rel_append ?_ ?_
    · exact inert_map h₁.inert (fun errors => before ++ (errors ++ errors₂))
        (fun _ _ _ hYields => hWalk _ _ _ _ _ _ hYields h₂.yields)
        fun _ _ hDrops => (hDrops.inFront errors₂).behind before
    · exact inert_map h₂.inert (fun errors => before ++ (errors₁ ++ errors))
        (fun _ _ _ hYields => hWalk _ _ _ _ _ _ h₁.yields hYields)
        fun _ _ hDrops => (hDrops.behind errors₁).behind before

/-- A row that begins with a variable. When that is refused, `walk` has to make of the others what
`tail` makes of them. -/
theorem cons {δ : Type} {walk tail : List δ → Resolve (List δ)}
    {removals : List δ → List (Removal (List δ))} {x x' : δ} {xs xs' : List δ} {d d' : VarDecl}
    (h : Spares tail removals t₁ xs xs' t₂ errors₂) (hStack : t₁.stack = t.stack)
    (hLength : t.store.length ≤ t₁.store.length)
    (hWalk : ∀ ys ys' errors, Yields (tail ys) t₁ ys' t₂ errors →
      Yields (walk (x :: ys)) t (x' :: ys') t₂ (errors₁ ++ errors))
    (hRefused : d'.id.symbol? = none → d'.id = d.id ∧ (∃ e, errors₁ = [e] ∧ d'.Refused e) ∧
      Yields (walk xs) t xs' t₂ errors₂)
    (hBefore : ∀ ys, removals (x :: ys) = ⟨d, ys⟩ :: (removals ys).map (.map (x :: ·)))
    (hAfter : ∀ ys, removals (x' :: ys) = ⟨d', ys⟩ :: (removals ys).map (.map (x' :: ·))) :
    Spares walk removals t (x :: xs) (x' :: xs') t₂ (errors₁ ++ errors₂) where
  yields := hWalk xs xs' errors₂ h.yields
  stack := h.stack.trans hStack
  length := Nat.le_trans hLength h.length
  inert := by
    rw [hBefore, hAfter]
    -- the variable itself, and then the removals from the rest of the row
    refine .cons (fun hUnbound => ?_) ?_
    · obtain ⟨hSame, ⟨e, rfl, hError⟩, hYields⟩ := hRefused hUnbound
      exact ⟨hSame, errors₂, hYields, [], e, errors₂, hError, rfl, rfl⟩
    · exact inert_map h.inert (errors₁ ++ ·) hWalk fun _ _ hDrops => hDrops.behind errors₁

end Spares

/-! ## Rows of variables and fields -/

/-- The variables of a block, or the fields of a struct, in the scope `k`. -/
theorem varDecls_spared {step : VarDecl → Resolve VarDecl} {stack : List ScopeId}
    (hStep : ∀ d t, t.stack = stack → ∃ d' t' errors, Yields (step d) t d' t' errors ∧
      d.Outcome t k d' t' errors)
    (ds : List VarDecl) (t : SymbolTable) (hStack : t.stack = stack) (hk : k < t.store.length) :
    ∃ ds' t' errors,
      Spares (fun ds => ds.mapM step) varRemovals t ds ds' t' errors := by
  -- induction on the variables; the first one is removed itself, the others behind it
  induction ds generalizing t with
  | nil => exact ⟨[], t, [], .leaf (Yields.pure [] t) rfl rfl⟩
  | cons d ds ih =>
    obtain ⟨d', t₁, errors₁, hYields, hOutcome⟩ := hStep d t hStack
    have hAdds := hOutcome.adds hk
    obtain ⟨ds', t₂, errors₂, hRest⟩ :=
      ih t₁ (hAdds.stack.trans hStack) (Nat.lt_of_lt_of_le hk hAdds.length)
    refine ⟨d' :: ds', t₂, errors₁ ++ errors₂, hRest.cons hAdds.stack hAdds.length
      (fun ys ys' errors hYs => hYields.mapM_cons hYs) (fun hUnbound => ?_)
      (fun _ => rfl) (fun _ => rfl)⟩
    -- a refused variable leaves the table as it found it, so the rest of the walk is the same
    obtain ⟨hSame, rfl, hError⟩ := hOutcome.refused hUnbound
    exact ⟨hSame, hError, hRest.yields⟩

/-- No type makes a formal of a variable. -/
theorem TypeRef.Gives.isFormal_eq {type type' : TypeRef} {meaning : Meaning}
    (h : TypeRef.Gives t type type' meaning) (name : String) :
    (declaredSymbol k name meaning).isFormal = false := by
  cases h <;> rfl

section Formals

variable {d d' : VarDecl} (h : d.Outcome t k d' t' errors)
include h

/-- A variable leaves the formals of its scope as they were, and does not add to them. -/
theorem VarDecl.Outcome.formals (hk : k < t.store.length) (name : String) :
    ((t'.scope k).lookup name).any Symbol.isFormal =
      ((t.scope k).lookup name).any Symbol.isFormal := by
  cases h with
  | formal | void | noStruct => rfl
  | typed _ hGives hDeclares =>
    cases hDeclares with
    | taken => rfl
    | bound hBound =>
      rw [declareIn_scope_self hk hBound, Scope.lookup_bind]
      by_cases hName : d.id.name = name
      -- the name was free
      · rw [← hName, (declareIn_eq_some hBound).1, if_pos rfl, Option.none_or, Option.any_some,
          hGives.isFormal_eq, Option.any_none]
      · rw [if_neg hName, Option.or_none]

/-- A variable that is named like a formal of its scope stands for it, so what is refused is not. -/
theorem VarDecl.Outcome.not_formal (hUnbound : d'.id.symbol? = none) :
    ((t.scope k).lookup d.id.name).any Symbol.isFormal = false := by
  cases h with
  | formal => cases hUnbound
  | void hFormal | noStruct hFormal | typed hFormal =>
    cases hFound : (t.scope k).lookup d.id.name with
    | none => rfl
    | some symbol => simpa [hFound] using hFormal

end Formals

/-- Of the names that were seen before the variables of a function body, only those of formals
matter. -/
theorem resolveLocals_seen {seen seen' : List String} (ds : List VarDecl) (t : SymbolTable)
    (hStack : t.stack = k :: rest) (hk : k < t.store.length)
    (hSeen : ∀ name, ((t.scope k).lookup name).any Symbol.isFormal = true →
      seen.contains name = seen'.contains name) :
    ∃ ds' t' errors, Yields (resolveLocals seen ds) t ds' t' errors ∧
      Yields (resolveLocals seen' ds) t ds' t' errors := by
  induction ds generalizing t seen seen' with
  | nil => exact ⟨[], t, [], Yields.pure [] t, Yields.pure [] t⟩
  | cons d ds ih =>
    -- what has been seen matters for formals only
    have hNext : ∀ name, ((t.scope k).lookup name).any Symbol.isFormal = true →
        (d.id.name :: seen).contains name = (d.id.name :: seen').contains name :=
      fun name hFormal => by rw [List.contains_cons, List.contains_cons, hSeen name hFormal]
    have hLocal : t.lookupLocal d.id.name = (t.scope k).lookup d.id.name := by
      rw [lookupLocal, hStack]
      rfl
    have hSame : (seen.contains d.id.name && (t.lookupLocal d.id.name).any Symbol.isFormal) =
        (seen'.contains d.id.name && (t.lookupLocal d.id.name).any Symbol.isFormal) := by
      -- the two lists of names agree on formals, and other names are not asked for
      rw [hLocal]
      cases hFormal : ((t.scope k).lookup d.id.name).any Symbol.isFormal with
      | true => rw [hSeen _ hFormal]
      | false => rw [Bool.and_false, Bool.and_false]
    by_cases hRepeats :
        (seen.contains d.id.name && (t.lookupLocal d.id.name).any Symbol.isFormal) = true
    · obtain ⟨ds', t', errors, hYields, hYields'⟩ := ih t hStack hk hNext
      exact ⟨d :: ds', t', _, resolveLocals_repeated hRepeats hYields,
        resolveLocals_repeated (hSame ▸ hRepeats) hYields'⟩
    · obtain ⟨d', t₁, errors₁, hHead, hOutcome⟩ := d.resolve_yields hStack
      have hAdds := hOutcome.adds hk
      obtain ⟨ds', t₂, errors₂, hYields, hYields'⟩ := ih t₁ (hAdds.stack.trans hStack)
        (Nat.lt_of_lt_of_le hk hAdds.length)
        (fun name hFormal => hNext name (hOutcome.formals hk name ▸ hFormal))
      exact ⟨d' :: ds', t₂, _, resolveLocals_resolved hRepeats hHead hYields,
        resolveLocals_resolved (hSame ▸ hRepeats) hHead hYields'⟩

/-- A name can be forgotten if it is not that of a formal, or was seen before. -/
theorem resolveLocals_forget {name : String} {seen : List String} {ds ds' : List VarDecl}
    (hStack : t.stack = k :: rest) (hk : k < t.store.length)
    (hName : ((t.scope k).lookup name).any Symbol.isFormal = true → seen.contains name = true)
    (hYields : Yields (resolveLocals (name :: seen) ds) t ds' t' errors) :
    Yields (resolveLocals seen ds) t ds' t' errors := by
  have hSame : ∀ other, ((t.scope k).lookup other).any Symbol.isFormal = true →
      (name :: seen).contains other = seen.contains other := by
    intro other hFormal
    -- only the forgotten name itself could make a difference
    by_cases hOther : other = name
    · rw [hOther] at hFormal ⊢
      rw [List.contains_cons, beq_self_eq_true, Bool.true_or, hName hFormal]
    · rw [List.contains_cons, beq_false_of_ne hOther, Bool.false_or]
  obtain ⟨_, _, _, hSeen, hForgotten⟩ := resolveLocals_seen ds t hStack hk hSame
  obtain ⟨rfl, rfl, rfl⟩ := hYields.unique hSeen
  exact hForgotten

/-- The variables of a function body. -/
theorem resolveLocals_spared (seen : List String) (ds : List VarDecl) (t : SymbolTable)
    (hStack : t.stack = k :: rest) (hk : k < t.store.length) :
    ∃ ds' t' errors, Spares (resolveLocals seen) varRemovals t ds ds' t' errors := by
  induction ds generalizing t seen with
  | nil => exact ⟨[], t, [], .leaf (Yields.pure [] t) rfl rfl⟩
  | cons d ds ih =>
    by_cases hRepeats :
        (seen.contains d.id.name && (t.lookupLocal d.id.name).any Symbol.isFormal) = true
    · obtain ⟨ds', t', errors, hRest⟩ := ih (d.id.name :: seen) t hStack hk
      refine ⟨d :: ds', t', _, hRest.cons rfl (Nat.le_refl _)
        (fun ys ys' errors hYs => resolveLocals_repeated hRepeats hYs)
        (fun _ => ⟨rfl, ⟨_, rfl, .repeated⟩, ?_⟩) (fun _ => rfl) (fun _ => rfl)⟩
      -- the name was seen before, at the variable that stands for the formal
      have hBefore : seen.contains d.id.name = true := (Bool.and_eq_true_iff.mp hRepeats).1
      exact resolveLocals_forget hStack hk (fun _ => hBefore) hRest.yields
    · obtain ⟨d', t₁, errors₁, hHead, hOutcome⟩ := d.resolve_yields hStack
      have hAdds := hOutcome.adds hk
      obtain ⟨ds', t₂, errors₂, hRest⟩ := ih (d.id.name :: seen) t₁ (hAdds.stack.trans hStack)
        (Nat.lt_of_lt_of_le hk hAdds.length)
      refine ⟨d' :: ds', t₂, _, hRest.cons hAdds.stack hAdds.length
        (fun ys ys' errors hYs => resolveLocals_resolved hRepeats hHead hYs)
        (fun hUnbound => ?_) (fun _ => rfl) (fun _ => rfl)⟩
      -- a name that is refused here is not that of a formal
      have hNot := hOutcome.not_formal hUnbound
      obtain ⟨hSame, rfl, hError⟩ := hOutcome.refused hUnbound
      refine ⟨hSame, hError, resolveLocals_forget hStack hk (fun hFormal => ?_) hRest.yields⟩
      rw [hNot] at hFormal
      cases hFormal

/-! ## Statements -/

/-- A scope around a walk changes nothing about it. -/
theorem Spares.inScope {walk : α → Resolve α} {removals : α → List (Removal α)} {x x' : α}
    (h : Spares walk removals t.push.2 x x' t' errors) :
    Spares (fun x => inScope (walk x)) removals t x x' { t' with stack := t.stack } errors where
  yields := inScope_yields h.yields h.stack
  stack := rfl
  length := length_le_of_push h.length
  inert := h.inert.imp fun r r' hInert hUnbound => by
    obtain ⟨hSame, errors', hYields, hDrops⟩ := hInert hUnbound
    exact ⟨hSame, errors', inScope_yields hYields h.stack, hDrops⟩

/-- The declarations of a block and then its statements, in a scope of their own. -/
def Block.resolve (b : Block Stmt) : Resolve (Block Stmt) :=
  inBlock b.decls (Stmt.resolveAll b.stmts)

theorem Block.resolve_spared {stmts : List Stmt}
    (hStmts : ∀ t, t.Sound → ∃ stmts' t' errors,
      Spares Stmt.resolveAll Stmt.removalsAll t stmts stmts' t' errors)
    (decls : List VarDecl) (t : SymbolTable) (hSound : t.Sound) :
    ∃ b' t' errors, Spares Block.resolve Block.removals t ⟨decls, stmts⟩ b' t' errors := by
  -- the variables and the statements of a block share the scope that it opens
  have hPushed := hSound.push
  obtain ⟨decls', t₁, errors₁, hDecls⟩ := varDecls_spared
    (fun d t hStack => VarDecl.resolve_yields hStack d) decls t.push.2 (push_stack t)
    (hPushed.innermost_made (push_stack t))
  obtain ⟨stmts', t₂, errors₂, hRest⟩ := hStmts t₁ (hDecls.sound hPushed)
  have hInner : Spares
      (fun b => b.decls.mapM VarDecl.resolve >>= fun decls =>
        Stmt.resolveAll b.stmts >>= fun stmts => pure ⟨decls, stmts⟩)
      Block.removals t.push.2 ⟨decls, stmts⟩ ⟨decls', stmts'⟩ t₂ ([] ++ (errors₁ ++ errors₂)) :=
    hDecls.both hRest Block.mk Block.mk [] (fun _ decls' _ _ _ _ hDecls hStmts =>
      hDecls.bind (hStmts.bind_pure (Block.mk decls'))) (fun _ _ => rfl) (fun _ _ => rfl)
  exact ⟨_, _, _, hInner.inScope⟩

mutual

/-- The walk over a statement spares the declarations in its blocks. -/
theorem Stmt.resolve_spared : (s : Stmt) → (t : SymbolTable) → t.Sound →
    ∃ s' t' errors, Spares Stmt.resolve Stmt.removals t s s' t' errors
  -- statements without declarations have nothing to remove
  | .assign target value, t, _ =>
    ⟨_, t, _, .leaf (Stmt.assign_yields target value t) rfl rfl⟩
  | .increment target, t, _ => ⟨_, t, _, .leaf (Stmt.increment_yields target t) rfl rfl⟩
  | .decrement target, t, _ => ⟨_, t, _, .leaf (Stmt.decrement_yields target t) rfl rfl⟩
  | .read target, t, _ => ⟨_, t, _, .leaf (Stmt.read_yields target t) rfl rfl⟩
  | .write value, t, _ => ⟨_, t, _, .leaf (Stmt.write_yields value t) rfl rfl⟩
  | .call callee args, t, _ => ⟨_, t, _, .leaf (Stmt.call_yields callee args t) rfl rfl⟩
  | .ret none, t, _ => ⟨_, t, _, .leaf (Stmt.retNone_yields t) rfl rfl⟩
  | .ret (some value), t, _ => ⟨_, t, _, .leaf (Stmt.retSome_yields value t) rfl rfl⟩
  | .ifThen cond ⟨decls, stmts⟩, t, hSound => by
    obtain ⟨body', t', errors, hBody⟩ :=
      Block.resolve_spared (Stmt.resolveAll_spared stmts) decls t hSound
    exact ⟨.ifThen (cond.annotate t) body', t', cond.diagnose t ++ errors,
      hBody.wrap (Stmt.ifThen cond) (Stmt.ifThen (cond.annotate t)) (cond.diagnose t)
        (fun _ _ _ => Stmt.ifThen_yields) hBody.stack hBody.length (fun _ => rfl) (fun _ => rfl)⟩
  -- the second block is walked from the table that the first one leaves
  | .ifElse cond ⟨decls, stmts⟩ ⟨elseDecls, elseStmts⟩, t, hSound => by
    obtain ⟨body', t₁, errors₁, hBody⟩ :=
      Block.resolve_spared (Stmt.resolveAll_spared stmts) decls t hSound
    obtain ⟨otherwise', t₂, errors₂, hOtherwise⟩ :=
      Block.resolve_spared (Stmt.resolveAll_spared elseStmts) elseDecls t₁ (hBody.sound hSound)
    exact ⟨.ifElse (cond.annotate t) body' otherwise', t₂, cond.diagnose t ++ (errors₁ ++ errors₂),
      hBody.both hOtherwise (Stmt.ifElse cond) (Stmt.ifElse (cond.annotate t)) (cond.diagnose t)
        (fun _ _ _ _ _ _ => Stmt.ifElse_yields) (fun _ _ => rfl) (fun _ _ => rfl)⟩
  | .loop cond ⟨decls, stmts⟩, t, hSound => by
    obtain ⟨body', t', errors, hBody⟩ :=
      Block.resolve_spared (Stmt.resolveAll_spared stmts) decls t hSound
    exact ⟨.loop (cond.annotate t) body', t', cond.diagnose t ++ errors,
      hBody.wrap (Stmt.loop cond) (Stmt.loop (cond.annotate t)) (cond.diagnose t)
        (fun _ _ _ => Stmt.loop_yields) hBody.stack hBody.length (fun _ => rfl) (fun _ => rfl)⟩

theorem Stmt.resolveAll_spared : (ss : List Stmt) → (t : SymbolTable) → t.Sound →
    ∃ ss' t' errors, Spares Stmt.resolveAll Stmt.removalsAll t ss ss' t' errors
  | [], t, _ => ⟨[], t, [], .leaf (Yields.pure [] t) rfl rfl⟩
  | s :: ss, t, hSound => by
    obtain ⟨s', t₁, errors₁, hHead⟩ := Stmt.resolve_spared s t hSound
    obtain ⟨ss', t₂, errors₂, hRest⟩ := Stmt.resolveAll_spared ss t₁ (hHead.sound hSound)
    refine ⟨s' :: ss', t₂, errors₁ ++ errors₂, hHead.both hRest List.cons List.cons []
      (fun s s' ss ss' _ _ hS hSs => ?_) (fun _ _ => rfl) (fun _ _ => rfl)⟩
    rw [Stmt.resolveAll]
    exact hS.bind (hSs.bind_pure (s' :: ·))

end

/-! ## Functions and structs -/

/-- The walk over a function spares the variables of its body. -/
theorem FuncDecl.resolve_spared (f : FuncDecl) (t : SymbolTable) (hSound : t.Sound) :
    ∃ f' t' errors, Spares FuncDecl.resolve FuncDecl.removals t f f' t' errors := by
  obtain ⟨k, rest, hStack⟩ := hSound.exists_innermost
  obtain ⟨id', t₁, errors₁, hName, hDeclares⟩ :=
    declareHere_yields hStack f.id (.function f.result.name f.paramTypes)
  have hAdds := hDeclares.adds (hSound.innermost_made hStack)
  have hPushed := (hAdds.toTouches.sound hSound).push
  obtain ⟨formals, t₂, errors₂, hFormals, hTouches⟩ :=
    formals_fill f.formals t₁.push.2 _ _ hPushed (push_stack t₁)
  have hInner := hTouches.sound hPushed
  -- the body, in the scope of the formals
  have hStack₂ := hTouches.stack.trans (push_stack t₁)
  obtain ⟨decls, t₃, errors₃, hDecls⟩ := resolveLocals_spared [] f.body.decls t₂ hStack₂
    (hInner.innermost_made hStack₂)
  obtain ⟨stmts, t₄, errors₄, hStmts⟩ :=
    Stmt.resolveAll_spared f.body.stmts t₃ (hDecls.sound hInner)
  have hBody : Spares resolveBody Block.removals t₂ f.body ⟨decls, stmts⟩ t₄
      ([] ++ (errors₃ ++ errors₄)) :=
    hDecls.both hStmts Block.mk Block.mk [] (fun _ decls _ _ _ _ hDecls hStmts =>
      hDecls.bind (hStmts.bind_pure (Block.mk decls))) (fun _ _ => rfl) (fun _ _ => rfl)
  have hClosed : t₄.stack = t₁.push.2.stack := hBody.stack.trans hTouches.stack
  refine ⟨⟨f.result, id', formals, ⟨decls, stmts⟩⟩, { t₄ with stack := t₁.stack }, _,
    hBody.wrap (fun body => { f with body := body }) (FuncDecl.mk f.result id' formals)
      (errors₁ ++ errors₂) (fun body body' errors hYields => ?_) hAdds.stack ?_ (fun _ => rfl)
      (fun _ => rfl)⟩
  · rw [List.append_assoc]
    exact hName.bind (inScope_yields (hFormals.bind (hYields.bind_pure _)) hClosed)
  · exact Nat.le_trans hAdds.length (length_le_of_push (Nat.le_trans hTouches.length hBody.length))

/-- The walk over a struct spares its fields. -/
theorem StructDecl.resolve_spared (s : StructDecl) (t : SymbolTable) (hSound : t.Sound) :
    ∃ s' t' errors, Spares StructDecl.resolve StructDecl.removals t s s' t' errors := by
  obtain ⟨k, rest, hStack⟩ := hSound.exists_innermost
  -- the name is declared in front of all fields, so only the fields can be removed
  obtain ⟨id', t₁, errors₁, hName, hDeclares⟩ :=
    declareHere_yields (t := t.newScope.2) hStack s.id (.structDecl t.store.length)
  have hk : k < t.newScope.2.store.length :=
    newScope_length t ▸ Nat.lt_succ_of_lt (hSound.innermost_made hStack)
  have hAdds := hDeclares.adds hk
  have hLength : t.store.length < t₁.store.length := by
    rw [hDeclares.length_eq, newScope_length]
    exact Nat.lt_succ_self _
  obtain ⟨fields, t₂, errors₂, hFields⟩ := varDecls_spared
    (fun d t _ => d.resolveIn_yields _ t) s.fields t₁ rfl hLength
  refine ⟨⟨id', fields⟩, t₂, _,
    hFields.wrap (StructDecl.mk s.id) (StructDecl.mk id') errors₁
      (fun fields fields' errors hYields => StructDecl.resolve_yields hName hYields)
      (hFields.stack.trans hAdds.stack) ?_ (fun _ => rfl) (fun _ => rfl)⟩
  exact Nat.le_trans (Nat.le_of_lt hLength) hFields.length

/-! ## Programs -/

/-- The declarations of the top level. -/
theorem decls_spared (ds : List Decl) (t : SymbolTable) (hSound : t.Sound) :
    ∃ ds' t' errors,
      Spares (fun ds => ds.mapM Decl.resolve) declRemovals t ds ds' t' errors := by
  induction ds generalizing t with
  | nil => exact ⟨[], t, [], .leaf (Yields.pure [] t) rfl rfl⟩
  | cons d ds ih =>
    -- a variable can be removed itself, the other declarations only in parts
    cases d with
    | var d =>
      obtain ⟨k, rest, hStack⟩ := hSound.exists_innermost
      obtain ⟨d', t₁, errors₁, hYields, hOutcome⟩ := d.resolve_yields hStack
      have hAdds := hOutcome.adds (hSound.innermost_made hStack)
      obtain ⟨ds', t₂, errors₂, hRest⟩ := ih t₁ (hAdds.toTouches.sound hSound)
      have hHead : Yields (Decl.var d).resolve t (.var d') t₁ errors₁ := hYields.map Decl.var
      refine ⟨.var d' :: ds', t₂, errors₁ ++ errors₂, hRest.cons hAdds.stack hAdds.length
        (fun ys ys' errors hYs => hHead.mapM_cons hYs) (fun hUnbound => ?_)
        (fun _ => rfl) (fun _ => rfl)⟩
      obtain ⟨hSame, rfl, hError⟩ := hOutcome.refused hUnbound
      exact ⟨hSame, hError, hRest.yields⟩
    | func f =>
      obtain ⟨f', t₁, errors₁, hHead⟩ := f.resolve_spared t hSound
      obtain ⟨ds', t₂, errors₂, hRest⟩ := ih t₁ (hHead.sound hSound)
      refine ⟨.func f' :: ds', t₂, errors₁ ++ errors₂,
        hHead.both hRest (fun f ds => .func f :: ds) (fun f ds => .func f :: ds) []
          (fun f f' _ _ errors _ hYields hYs => ?_) (fun _ _ => rfl) (fun _ _ => rfl)⟩
      have hDecl : Yields (Decl.func f).resolve t (.func f') t₁ errors := hYields.map Decl.func
      exact hDecl.mapM_cons hYs
    | struct s =>
      obtain ⟨s', t₁, errors₁, hHead⟩ := s.resolve_spared t hSound
      obtain ⟨ds', t₂, errors₂, hRest⟩ := ih t₁ (hHead.sound hSound)
      refine ⟨.struct s' :: ds', t₂, errors₁ ++ errors₂,
        hHead.both hRest (fun s ds => .struct s :: ds) (fun s ds => .struct s :: ds) []
          (fun s s' _ _ errors _ hYields hYs => ?_) (fun _ _ => rfl) (fun _ _ => rfl)⟩
      have hDecl : Yields (Decl.struct s).resolve t (.struct s') t₁ errors :=
        hYields.map Decl.struct
      exact hDecl.mapM_cons hYs

/-- **Refused declarations are inert.** A program has a removal for each of its variables and
fields, which takes away the identifiers of this declaration and no others. An analysis of the
program does not fail. Take any variable or field whose name carries no symbol afterwards, and
remove it from the program: the analysis of what is left comes to the same tree without the
declaration, so with the same symbol on every other identifier; to the same symbol table; and to the
same errors in the same order without one that refuses the declaration. -/
theorem refused_declarations_are_inert (a : Analyzer) (p : Program) :
    (p.removals.map Removal.removed = p.varDecls ∧
      ∀ r ∈ p.removals, r.Cuts Program.idents p) ∧
    ∃ q b, a.analyze p = .ok (q, b) ∧
      (q.removals.map Removal.removed = q.varDecls ∧ ∀ r ∈ q.removals, r.Cuts Program.idents q) ∧
      List.Forall₂ (fun r r' => r'.removed.id.symbol? = none →
          r'.removed.id = r.removed.id ∧
            ∃ b', a.analyze r.left = .ok (r'.left, b') ∧ b'.table = b.table ∧
              r'.removed.Drops b.errors b'.errors)
        p.removals q.removals := by
  refine ⟨⟨p.removals_removed, p.removals_cut⟩, ?_⟩
  obtain ⟨decls, t, errors, hSpared⟩ := decls_spared p.decls a.table.restart (.restart a.table)
  obtain ⟨b, hAnalyze, rfl, rfl⟩ := analyze_of_yields hSpared.yields
  refine ⟨⟨decls⟩, b, hAnalyze, ⟨Program.removals_removed _, Program.removals_cut _⟩, ?_⟩
  rw [Program.removals, Program.removals, List.forall₂_map_left_iff, List.forall₂_map_right_iff]
  refine hSpared.inert.imp fun r r' hInert hUnbound => ?_
  obtain ⟨hSame, errors', hYields, hDrops⟩ := hInert hUnbound
  -- the program without the declaration is walked to the same table, so its analysis ends there as
  -- well
  obtain ⟨b', hAnalyze', hTable, rfl⟩ := analyze_of_yields (p := ⟨r.left⟩) hYields
  exact ⟨hSame, b', hAnalyze', hTable, hDrops⟩

/-- A repeated field and a void variable are refused, and each of them can go. -/
theorem failingProgram_refused_inert :
    ∃ q b, Analyzer.new.analyze failingProgram = .ok (q, b) ∧
      q.removals.map (·.removed.id.symbol?.isSome) = [true, false, false, true] ∧
      ∀ n ∈ [1, 2], ∃ r r' b', failingProgram.removals[n]? = some r ∧ q.removals[n]? = some r' ∧
        r'.removed.id.symbol? = none ∧ Analyzer.new.analyze r.left = .ok (r'.left, b') ∧
        b'.table = b.table ∧ r'.removed.Drops b.errors b'.errors := by
  obtain ⟨-, q, b, hAnalyze, -, hInert⟩ :=
    refused_declarations_are_inert Analyzer.new failingProgram
  have hBound : (Analyzer.new.analyze failingProgram).toOption.map
      (fun answer => answer.1.removals.map (·.removed.id.symbol?.isSome)) =
        some [true, false, false, true] := by
    decide +kernel
  rw [hAnalyze] at hBound
  have hBound : q.removals.map (·.removed.id.symbol?.isSome) = [true, false, false, true] :=
    Option.some.inj hBound
  refine ⟨q, b, hAnalyze, hBound, fun n hn => ?_⟩
  obtain ⟨hLength, hAt⟩ := List.forall₂_iff_get.mp hInert
  have hFour : failingProgram.removals.length = 4 := by decide
  have hMade : n < failingProgram.removals.length := by
    rw [hFour]
    revert n
    decide
  have hUnbound : (q.removals.get ⟨n, hLength ▸ hMade⟩).removed.id.symbol? = none := by
    have hGet : (q.removals.map (·.removed.id.symbol?.isSome))[n]? = some false := by
      rw [hBound]
      revert n
      decide
    simpa [hLength ▸ hMade] using hGet
  obtain ⟨-, b', hAnalyze', hTable, hDrops⟩ := hAt n hMade _ hUnbound
  exact ⟨_, _, b', List.getElem?_eq_getElem hMade, List.getElem?_eq_getElem _, hUnbound,
    hAnalyze', hTable, hDrops⟩

end NameResolution
