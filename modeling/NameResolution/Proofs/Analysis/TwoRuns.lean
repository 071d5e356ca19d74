import Mathlib.Order.Basic
import NameResolution.Proofs.Analysis.Yields

/-!
# Two runs — parts of a walk that keep two symbol tables together

Many laws of the analysis compare two of its runs. The runs are over two trees, or from two tables,
and what relates the tables is kept by every step. Here the relation is left open, and with it what
is known of the scopes: that grows from step to step, so it is an element of a preorder.

* `KeepsScopes` — relations that are kept when both runs open and leave a scope.
* `InStep` — two parts of a walk with the same errors, after which the tables are related again.
* `InStep.bind`, `InStep.both`, `InStep.inScope` — parts of parts in step are in step.
-/

namespace NameResolution

open Analysis SymbolTable

variable {W : Type} [Preorder W] {α β γ δ : Type} {w w' : W} {t u : SymbolTable}

/-- Two tables with the same open scopes, when `w` is known of their scopes. -/
structure KeepsScopes (related : W → SymbolTable → SymbolTable → Prop) : Prop where
  stack : ∀ {w t u}, related w t u → u.stack = t.stack
  push : ∀ {w t u}, related w t u → ∃ w', w ≤ w' ∧ related w' t.push.2 u.push.2
  /-- The scopes that are open are those of an earlier time. -/
  leave : ∀ {w w' t u t' u'}, w ≤ w' → related w t u → related w' t' u' →
    t'.stack = t.push.2.stack →
    related w' { t' with stack := t.stack } { u' with stack := u.stack }

/-- From the tables `t` and `u`, both parts succeed with the same errors, and leave the scopes open
that were open. Their answers agree, and the tables are related again. -/
def InStepAt (related : W → SymbolTable → SymbolTable → Prop) (w : W) (t u : SymbolTable)
    (part : Resolve α) (part' : Resolve β) (agree : W → α → β → Prop) : Prop :=
  ∃ w' x t' y u' errors, w ≤ w' ∧ Yields part t x t' errors ∧ Yields part' u y u' errors ∧
    related w' t' u' ∧ t'.stack = t.stack ∧ agree w' x y

/-- From related tables both parts do the same, whatever more than `w` is known. -/
def InStep (related : W → SymbolTable → SymbolTable → Prop) (w : W) (part : Resolve α)
    (part' : Resolve β) (agree : W → α → β → Prop) : Prop :=
  ∀ w', w ≤ w' → ∀ t u, related w' t u → InStepAt related w' t u part part' agree

/-- What agrees goes on agreeing when more is known. -/
def Lasting (agree : W → α → β → Prop) : Prop :=
  ∀ {w w'}, w ≤ w' → ∀ x y, agree w x y → agree w' x y

variable {related : W → SymbolTable → SymbolTable → Prop} {part : Resolve α} {part' : Resolve β}
  {next : α → Resolve γ} {next' : β → Resolve δ} {agree : W → α → β → Prop}
  {agree' : W → γ → δ → Prop}

/-- Parts in step stay so when more is known. -/
theorem InStep.mono (h : InStep related w part part' agree) (hMore : w ≤ w') :
    InStep related w' part part' agree :=
  fun _ hLater => h _ (hMore.trans hLater)

/-! ## Composition -/

/-- Answers that agree are in step at the given tables. -/
theorem InStepAt.pure {x : α} {y : β} (h : related w t u) (hAgree : agree w x y) :
    InStepAt related w t u (Pure.pure x) (Pure.pure y) agree :=
  ⟨w, x, t, y, u, [], le_rfl, Yields.pure x t, Yields.pure y u, h, rfl, hAgree⟩

/-- Answers that agree are in step. -/
theorem InStep.pure {x : α} {y : β} (hAgree : ∀ w', w ≤ w' → agree w' x y) :
    InStep related w (Pure.pure x) (Pure.pure y) agree :=
  fun w' hMore _ _ h => .pure h (hAgree w' hMore)

/-- Two parts in a row are in step with two others from the given tables on. -/
theorem InStepAt.bind (h : InStepAt related w t u part part' agree)
    (hNext : ∀ w', w ≤ w' → ∀ x y, agree w' x y → InStep related w' (next x) (next' y) agree') :
    InStepAt related w t u (part >>= next) (part' >>= next') agree' := by
  obtain ⟨w₁, x, t₁, y, u₁, errors₁, hMore₁, hYields₁, hYields₁', hRelated₁, hStack₁, hAgree₁⟩ := h
  obtain ⟨w₂, x₂, t₂, y₂, u₂, errors₂, hMore₂, hYields₂, hYields₂', hRelated₂, hStack₂, hAgree₂⟩ :=
    hNext w₁ hMore₁ x y hAgree₁ w₁ le_rfl t₁ u₁ hRelated₁
  exact ⟨w₂, x₂, t₂, y₂, u₂, errors₁ ++ errors₂, hMore₁.trans hMore₂, hYields₁.bind hYields₂,
    hYields₁'.bind hYields₂', hRelated₂, hStack₂.trans hStack₁, hAgree₂⟩

/-- Two parts in a row are in step with two others. -/
theorem InStep.bind (h : InStep related w part part' agree)
    (hNext : ∀ w', w ≤ w' → ∀ x y, agree w' x y → InStep related w' (next x) (next' y) agree') :
    InStep related w (part >>= next) (part' >>= next') agree' :=
  fun w' hMore t u hRelated => (h w' hMore t u hRelated).bind fun w'' hLater =>
    hNext w'' (hMore.trans hLater)

/-- Parts whose answers are only wrapped afterwards. -/
theorem InStep.bind_pure {make : α → γ} {make' : β → δ} (h : InStep related w part part' agree)
    (hMake : ∀ w', w ≤ w' → ∀ x y, agree w' x y → agree' w' (make x) (make' y)) :
    InStep related w (part >>= fun x => Pure.pure (make x))
      (part' >>= fun y => Pure.pure (make' y)) agree' := by
  intro w' hMore t u hRelated
  obtain ⟨w₁, x, t₁, y, u₁, errors, hMore₁, hYields, hYields', hRelated₁, hStack, hAgree⟩ :=
    h w' hMore t u hRelated
  exact ⟨w₁, make x, t₁, make' y, u₁, errors, hMore₁, hYields.bind_pure make,
    hYields'.bind_pure make', hRelated₁, hStack, hMake w₁ (hMore.trans hMore₁) x y hAgree⟩

/-- Two parts, one after the other, whose answers are put together. -/
theorem InStep.both {ε ζ : Type} {second : Resolve γ} {second' : Resolve δ} {make : α → γ → ε}
    {make' : β → δ → ζ} {agree'' : W → ε → ζ → Prop} (h : InStep related w part part' agree)
    (hLasting : Lasting agree) (hSecond : InStep related w second second' agree')
    (hMake : ∀ w', w ≤ w' → ∀ x y x' y', agree w' x y → agree' w' x' y' →
      agree'' w' (make x x') (make' y y')) :
    InStep related w (part >>= fun x => second >>= fun x' => Pure.pure (make x x'))
      (part' >>= fun y => second' >>= fun y' => Pure.pure (make' y y')) agree'' :=
  h.bind fun _ hMore x y hAgree => (hSecond.mono hMore).bind_pure fun w' hLater x' y' hAgree' =>
    hMake w' (hMore.trans hLater) x y x' y' (hLasting hLater x y hAgree) hAgree'

/-- What is made of answers that agree has to agree. -/
theorem InStep.map {make : α → γ} {make' : β → δ} (h : InStep related w part part' agree)
    (hMake : ∀ w', w ≤ w' → ∀ x y, agree w' x y → agree' w' (make x) (make' y)) :
    InStep related w (make <$> part) (make' <$> part') agree' := by
  rw [map_eq_pure_bind, map_eq_pure_bind]
  exact h.bind_pure hMake

/-- Both runs look at their own table. -/
theorem InStepAt.getTable {next : SymbolTable → Resolve α} {next' : SymbolTable → Resolve β}
    (h : InStepAt related w t u (next t) (next' u) agree) :
    InStepAt related w t u (Analysis.getTable >>= next) (Analysis.getTable >>= next') agree := by
  obtain ⟨w', x, t', y, u', errors, hMore, hYields, hYields', hRest⟩ := h
  exact ⟨w', x, t', y, u', errors, hMore, (getTable_yields t).bind_silent hYields,
    (getTable_yields u).bind_silent hYields', hRest⟩

/-- Parts that first report the same. -/
theorem InStepAt.report (errors : List Diagnostic)
    (h : InStepAt related w t u part part' agree) :
    InStepAt related w t u (Analysis.report errors >>= fun _ => part)
      (Analysis.report errors >>= fun _ => part') agree := by
  obtain ⟨w', x, t', y, u', more, hMore, hYields, hYields', hRest⟩ := h
  exact ⟨w', x, t', y, u', errors ++ more, hMore, (report_yields errors t).bind hYields,
    (report_yields errors u).bind hYields', hRest⟩

/-- Parts that look at the innermost scope first. -/
theorem InStepAt.currentScope (hScopes : KeepsScopes related) {k : ScopeId} {rest : List ScopeId}
    (hStack : t.stack = k :: rest) {next : ScopeId → Resolve α} {next' : ScopeId → Resolve β}
    (hRelated : related w t u) (h : InStepAt related w t u (next k) (next' k) agree) :
    InStepAt related w t u (Analysis.currentScope >>= next) (Analysis.currentScope >>= next')
      agree := by
  have hStack' : u.stack = k :: rest := (hScopes.stack hRelated).trans hStack
  obtain ⟨w', x, t', y, u', errors, hMore, hYields, hYields', hRest⟩ := h
  exact ⟨w', x, t', y, u', errors, hMore, (currentScope_yields hStack).bind_silent hYields,
    (currentScope_yields hStack').bind_silent hYields', hRest⟩

/-- Parts in a scope of their own. -/
theorem InStep.inScope (hScopes : KeepsScopes related) (h : InStep related w part part' agree) :
    InStep related w (inScope part) (inScope part') agree := by
  intro w' hMore t u hRelated
  obtain ⟨w₁, hMore₁, hPushed⟩ := hScopes.push hRelated
  obtain ⟨w₂, x, t', y, u', errors, hMore₂, hYields, hYields', hRelated', hStack, hAgree⟩ :=
    h w₁ (hMore.trans hMore₁) t.push.2 u.push.2 hPushed
  have hStack' : u'.stack = u.push.2.stack := by
    rw [hScopes.stack hRelated', hStack, hScopes.stack hPushed]
  exact ⟨w₂, x, _, y, _, errors, hMore₁.trans hMore₂, inScope_yields hYields hStack,
    inScope_yields hYields' hStack',
    hScopes.leave (hMore₁.trans hMore₂) hRelated hRelated' hStack, rfl, hAgree⟩

end NameResolution
