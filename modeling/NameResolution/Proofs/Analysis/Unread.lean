import NameResolution.Proofs.Analysis.Outcome
import NameResolution.Proofs.Analysis.TwoRuns
import NameResolution.Tree.Idents

/-!
# Unread names — walks that do not see what a name is bound to

A name that does not occur in a tree is never looked up in a walk over it. So the walk does the same
under two tables that differ in what they bind this name to.

The struct of a variable is looked up under a name that the table has stored. So the name must not
be that of a struct in either table.

* `SymbolTable.ExceptFor` — two tables that agree on all names but one.
* `Blind` — a part of the walk that does the same under both.
* `Decl.resolve_blind` — a tree in which the name does not occur.
-/

namespace NameResolution

open Analysis SymbolTable

/-! ## Tables that agree on all names but one -/

namespace SymbolTable

variable {t t' u u' : SymbolTable} {g k : ScopeId} {name other : String}

/-- The tables have the same scopes and bind all names but `name` to the same symbols. From scope
number `g` on, the second one binds `name` to nothing, and the first one to no struct. All open
scopes are among these. -/
structure ExceptFor (g : ScopeId) (name : String) (t u : SymbolTable) : Prop where
  opened : t.stack ≠ []
  base_le : g ≤ t.store.length
  made : ∀ k ∈ t.stack, g ≤ k
  stack : u.stack = t.stack
  length : u.store.length = t.store.length
  same : ∀ k other, other ≠ name → (u.scope k).lookup other = (t.scope k).lookup other
  free : ∀ k, g ≤ k → (u.scope k).lookup name = none
  plain : ∀ k symbol, g ≤ k → (t.scope k).lookup name = some symbol → symbol.isStructDecl = false

namespace ExceptFor

/-- Any other name is found as before. -/
theorem lookup_eq (h : ExceptFor g name t u) (hOther : other ≠ name) :
    u.lookup other = t.lookup other := by
  rw [lookup, lookup, h.stack]
  exact congrArg (List.findSome? · t.stack) (funext fun k => h.same k other hOther)

/-- Any other name is found in the innermost scope as before. -/
theorem lookupLocal_eq (h : ExceptFor g name t u) (hOther : other ≠ name) :
    u.lookupLocal other = t.lookupLocal other := by
  rw [lookupLocal, lookupLocal, h.stack]
  exact congrArg (Option.bind t.stack.head?) (funext fun k => h.same k other hOther)

/-- Under every name the same struct is visible, since `name` is that of none. -/
theorem lookupStruct_eq (h : ExceptFor g name t u) (other : String) :
    u.lookupStruct other = t.lookupStruct other := by
  by_cases hOther : other = name
  · have hFree : u.lookup name = none :=
      List.findSome?_eq_none_iff.mpr fun k hk => h.free k (h.made k (h.stack ▸ hk))
    rw [hOther, lookupStruct, lookupStruct, hFree]
    refine (Option.filter_eq_none_iff.mpr fun symbol hFound => ?_).symm
    obtain ⟨k, hk, hBound⟩ := List.exists_of_findSome?_eq_some hFound
    exact Bool.eq_false_iff.mp (h.plain k symbol (h.made k hk) hBound)
  · rw [lookupStruct, lookupStruct, h.lookup_eq hOther]

/-- A field of any other name is accessed as before. -/
theorem access_eq (h : ExceptFor g name t u) (left : Symbol) (hOther : other ≠ name) :
    u.access left other = t.access left other := by
  have hStruct : u.lookupStruct = t.lookupStruct := funext h.lookupStruct_eq
  simp only [access, hStruct, h.same _ other hOther]

/-- From an empty global scope on nothing is bound yet. -/
theorem restart (t : SymbolTable) (name : String) :
    ExceptFor t.store.length name t.restart t.restart where
  opened := List.cons_ne_nil _ _
  base_le := Nat.le_of_lt (restart_length t ▸ Nat.lt_succ_self _)
  made k hk := by
    rw [restart_stack, List.mem_singleton] at hk
    exact Nat.le_of_eq hk.symm
  stack := rfl
  length := rfl
  same _ _ _ := rfl
  free k hk := by
    -- the new global scope binds nothing
    rw [restart_scope, scope_of_length_le hk]
    rfl
  plain k symbol hk hBound := by
    rw [restart_scope, scope_of_length_le hk] at hBound
    cases hBound

theorem newScope (h : ExceptFor g name t u) : ExceptFor g name t.newScope.2 u.newScope.2 where
  opened := h.opened
  base_le := by
    rw [newScope_length]
    exact Nat.le_succ_of_le h.base_le
  made := h.made
  stack := h.stack
  length := by rw [newScope_length, newScope_length, h.length]
  same k other hOther := by rw [newScope_scope, newScope_scope, h.same k other hOther]
  free k hk := by rw [newScope_scope, h.free k hk]
  plain k symbol hk hBound := h.plain k symbol hk (newScope_scope t k ▸ hBound)

/-- The same scopes are opened or left in both tables. -/
theorem with_stack (h : ExceptFor g name t u) {stack : List ScopeId} (hOpened : stack ≠ [])
    (hMade : ∀ k ∈ stack, g ≤ k) :
    ExceptFor g name { t with stack := stack } { u with stack := stack } where
  opened := hOpened
  base_le := h.base_le
  made := hMade
  stack := rfl
  length := h.length
  same := h.same
  free := h.free
  plain := h.plain

theorem push (h : ExceptFor g name t u) : ExceptFor g name t.push.2 u.push.2 := by
  have hPushed := h.newScope.with_stack (List.cons_ne_nil t.store.length t.stack) fun k hk => by
    rcases List.mem_cons.mp hk with rfl | hk
    · exact h.base_le
    · exact h.made k hk
  have hSame : u.push.2 = { u.newScope.2 with stack := t.store.length :: t.stack } := by
    rw [← h.length, ← h.stack]
    rfl
  rw [hSame]
  exact hPushed

/-- A declaration of another name is refused in both. -/
theorem declareIn_none (h : ExceptFor g name t u) {symbol : Symbol} (hOther : other ≠ name)
    (hDeclared : t.declareIn k other symbol = none) : u.declareIn k other symbol = none := by
  rw [declareIn_eq_none] at hDeclared ⊢
  rwa [h.same k other hOther]

/-- A declaration of another name is accepted in both. -/
theorem declareIn_some (h : ExceptFor g name t u) {symbol : Symbol} (hOther : other ≠ name)
    (hDeclared : t.declareIn k other symbol = some t') :
    ∃ u', u.declareIn k other symbol = some u' ∧ ExceptFor g name t' u' := by
  have hNew : u.declareIn k other symbol ≠ none := by
    intro hTaken
    rw [declareIn_eq_none, h.same k other hOther, (declareIn_eq_some hDeclared).1] at hTaken
    cases hTaken
  obtain ⟨u', hDeclared'⟩ := Option.ne_none_iff_exists'.mp hNew
  refine ⟨u', hDeclared', ?_⟩
  -- nothing is bound under a number that no scope has
  rcases Nat.lt_or_ge k t.store.length with hk | hk
  case inr =>
    obtain rfl := declareIn_eq_self hk hDeclared
    obtain rfl := declareIn_eq_self (h.length ▸ hk) hDeclared'
    exact h
  have hLookup := lookup_declareIn_eq hk hDeclared
  have hLookup' := lookup_declareIn_eq (h.length ▸ hk) hDeclared'
  have hStack := (declareIn_eq_some hDeclared).2.1
  exact
    { opened := hStack ▸ h.opened
      base_le := declareIn_length hDeclared ▸ h.base_le
      made := hStack ▸ h.made
      stack := by rw [(declareIn_eq_some hDeclared').2.1, hStack, h.stack]
      length := by rw [declareIn_length hDeclared', declareIn_length hDeclared, h.length]
      same := fun j bound hBound => by rw [hLookup, hLookup', h.same j bound hBound]
      free := fun j hj => by
        rw [hLookup', h.free j hj, if_neg fun hBoth => hOther hBoth.2]
        rfl
      plain := fun j found hj hFound => by
        rw [hLookup, if_neg fun hBoth => hOther hBoth.2, Option.or_none] at hFound
        exact h.plain j found hj hFound }

/-- Binding the name itself, to something else than a struct. -/
theorem declareIn_left (h : ExceptFor g name t u) {symbol : Symbol} (hk : k < t.store.length)
    (hPlain : symbol.isStructDecl = false) (hDeclared : t.declareIn k name symbol = some t') :
    ExceptFor g name t' u where
  opened := (declareIn_eq_some hDeclared).2.1 ▸ h.opened
  base_le := declareIn_length hDeclared ▸ h.base_le
  made := (declareIn_eq_some hDeclared).2.1 ▸ h.made
  stack := by rw [(declareIn_eq_some hDeclared).2.1, h.stack]
  length := by rw [declareIn_length hDeclared, h.length]
  same j bound hBound := by
    -- for any other name the new binding makes no difference
    rw [lookup_declareIn_eq hk hDeclared, if_neg fun hBoth => hBound hBoth.2.symm, Option.or_none,
      h.same j bound hBound]
  free := h.free
  plain j found hj hFound := by
    rcases (lookup_declareIn hk hDeclared).mp hFound with hOld | ⟨-, -, rfl⟩
    · exact h.plain j found hj hOld
    · exact hPlain

end ExceptFor

end SymbolTable

/-! ## Uses -/

/-- None of the identifiers has the name. -/
def Avoids (name : String) (ids : List Ident) : Prop :=
  ∀ id ∈ ids, id.name ≠ name

theorem Avoids.append {name : String} {ids ids' : List Ident} :
    Avoids name (ids ++ ids') ↔ Avoids name ids ∧ Avoids name ids' :=
  List.forall_mem_append

/-- A list avoids a name exactly if its head and its rest do. -/
theorem Avoids.cons {name : String} {id : Ident} {ids : List Ident} :
    Avoids name (id :: ids) ↔ id.name ≠ name ∧ Avoids name ids :=
  List.forall_mem_cons

section Uses

variable {t u : SymbolTable} {g : ScopeId} {name : String} (h : ExceptFor g name t u)
include h

/-- Another name gets the same symbol. -/
theorem Ident.annotate_except {id : Ident} (hName : id.name ≠ name) :
    id.annotate u = id.annotate t := by
  rw [annotate, annotate, denote, denote, h.lookup_eq hName]

/-- Another name has the same errors. -/
theorem Ident.diagnose_except {id : Ident} (hName : id.name ≠ name) :
    id.diagnose u = id.diagnose t := by
  rw [diagnose, diagnose, h.lookup_eq hName]

/-- A location without the name denotes the same. -/
theorem Loc.denote_except : {l : Loc} → Avoids name l.idents → l.denote u = l.denote t
  | .var id, hNames => by
    rw [Loc.denote, Loc.denote, SymbolTable.denote, SymbolTable.denote,
      h.lookup_eq (hNames id List.mem_cons_self)]
  | .field left id, hNames => by
    obtain ⟨hLeft, hField⟩ := Avoids.append.mp hNames
    rw [Loc.denote, Loc.denote, Loc.denote_except hLeft,
      h.access_eq _ (hField id List.mem_cons_self)]

/-- A location without the name gets the same symbols. -/
theorem Loc.annotate_except {l : Loc} (hNames : Avoids name l.idents) :
    l.annotate u = l.annotate t := by
  induction l with
  | var id => rw [annotate, annotate, id.annotate_except h (hNames id List.mem_cons_self)]
  | field left id ih =>
    rw [annotate, annotate, ih (Avoids.append.mp hNames).1, Loc.denote_except h hNames]

/-- A location without the name has the same errors. -/
theorem Loc.diagnose_except {l : Loc} (hNames : Avoids name l.idents) :
    l.diagnose u = l.diagnose t := by
  induction l with
  | var id => rw [diagnose, diagnose, id.diagnose_except h (hNames id List.mem_cons_self)]
  | field left id ih =>
    obtain ⟨hLeft, hField⟩ := Avoids.append.mp hNames
    rw [diagnose, diagnose, ih hLeft, Loc.denote_except h hLeft,
      h.access_eq _ (hField id List.mem_cons_self)]

end Uses

variable {α β : Type} {g : ScopeId} {name : String}

mutual

/-- An expression without the name gets the same symbols. -/
theorem Expr.annotate_except {t u : SymbolTable} (h : ExceptFor g name t u) :
    (e : Expr) → Avoids name e.idents → e.annotate u = e.annotate t
  | .trueLit _, _ | .falseLit _, _ | .intLit _ _, _ | .strLit _ _, _ => rfl
  | .loc location, hNames => by
    rw [Expr.annotate, Expr.annotate, Loc.annotate_except h hNames]
  | .assign target value, hNames => by
    obtain ⟨hTarget, hValue⟩ := Avoids.append.mp hNames
    rw [Expr.annotate, Expr.annotate, Loc.annotate_except h hTarget,
      Expr.annotate_except h value hValue]
  | .call callee args, hNames => by
    obtain ⟨hCallee, hArgs⟩ := Avoids.cons.mp hNames
    rw [Expr.annotate, Expr.annotate, Ident.annotate_except h hCallee,
      Expr.annotateAll_except h args hArgs]
  | .unary op operand, hNames => by
    rw [Expr.annotate, Expr.annotate, Expr.annotate_except h operand hNames]
  | .binary op left right, hNames => by
    obtain ⟨hLeft, hRight⟩ := Avoids.append.mp hNames
    rw [Expr.annotate, Expr.annotate, Expr.annotate_except h left hLeft,
      Expr.annotate_except h right hRight]

theorem Expr.annotateAll_except {t u : SymbolTable} (h : ExceptFor g name t u) :
    (es : List Expr) → Avoids name (Expr.identsAll es) →
      Expr.annotateAll u es = Expr.annotateAll t es
  | [], _ => rfl
  | e :: es, hNames => by
    obtain ⟨hHead, hRest⟩ := Avoids.append.mp hNames
    rw [Expr.annotateAll, Expr.annotateAll, Expr.annotate_except h e hHead,
      Expr.annotateAll_except h es hRest]

end

mutual

/-- An expression without the name has the same errors. -/
theorem Expr.diagnose_except {t u : SymbolTable} (h : ExceptFor g name t u) :
    (e : Expr) → Avoids name e.idents → e.diagnose u = e.diagnose t
  | .trueLit _, _ | .falseLit _, _ | .intLit _ _, _ | .strLit _ _, _ => rfl
  | .loc location, hNames => by
    rw [Expr.diagnose, Expr.diagnose, Loc.diagnose_except h hNames]
  | .assign target value, hNames => by
    obtain ⟨hTarget, hValue⟩ := Avoids.append.mp hNames
    rw [Expr.diagnose, Expr.diagnose, Loc.diagnose_except h hTarget,
      Expr.diagnose_except h value hValue]
  | .call callee args, hNames => by
    obtain ⟨hCallee, hArgs⟩ := Avoids.cons.mp hNames
    rw [Expr.diagnose, Expr.diagnose, Ident.diagnose_except h hCallee,
      Expr.diagnoseAll_except h args hArgs]
  | .unary op operand, hNames => by
    rw [Expr.diagnose, Expr.diagnose, Expr.diagnose_except h operand hNames]
  | .binary op left right, hNames => by
    obtain ⟨hLeft, hRight⟩ := Avoids.append.mp hNames
    rw [Expr.diagnose, Expr.diagnose, Expr.diagnose_except h left hLeft,
      Expr.diagnose_except h right hRight]

theorem Expr.diagnoseAll_except {t u : SymbolTable} (h : ExceptFor g name t u) :
    (es : List Expr) → Avoids name (Expr.identsAll es) →
      Expr.diagnoseAll u es = Expr.diagnoseAll t es
  | [], _ => rfl
  | e :: es, hNames => by
    obtain ⟨hHead, hRest⟩ := Avoids.append.mp hNames
    rw [Expr.diagnoseAll, Expr.diagnoseAll, Expr.diagnose_except h e hHead,
      Expr.diagnoseAll_except h es hRest]

end

/-! ## Blind parts of a walk -/

/-- Nothing has to be known of the scopes here, so one value is enough. -/
local instance unitPreorder : Preorder Unit :=
  PUnit.instLinearOrder.toPartialOrder.toPreorder

/-- The part does the same whatever `name` is bound to. -/
def Blind (g : ScopeId) (name : String) (part : Resolve α) : Prop :=
  InStep (fun _ : Unit => ExceptFor g name) () part part fun _ x y => x = y

variable {part : Resolve α} {next : α → Resolve β}

/-- Opening and closing scopes does not depend on the name. -/
theorem exceptFor_keepsScopes (g : ScopeId) (name : String) :
    KeepsScopes fun _ : Unit => ExceptFor g name where
  stack h := h.stack
  push h := ⟨(), le_rfl, h.push⟩
  leave _ h h' _ := by
    rw [h.stack]
    exact h'.with_stack h.opened h.made

/-- What a blind part does under one table, it does under the other. -/
theorem Blind.yields (h : Blind g name part) {t t' u : SymbolTable} {x : α}
    {errors : List Diagnostic} (hYields : Yields part t x t' errors)
    (hExcept : ExceptFor g name t u) :
    ∃ u', Yields part u x u' errors ∧ ExceptFor g name t' u' := by
  obtain ⟨_, _, _, _, u', _, -, hLeft, hRight, hExcept', -, rfl⟩ := h () le_rfl t u hExcept
  obtain ⟨rfl, rfl, rfl⟩ := hYields.unique hLeft
  exact ⟨u', hRight, hExcept'⟩

/-- A blind part does not bind the name. -/
theorem Blind.free (h : Blind g name part) {t t' : SymbolTable} {x : α}
    {errors : List Diagnostic} (hYields : Yields part t x t' errors)
    (hFree : ExceptFor g name t t) : ExceptFor g name t' t' := by
  obtain ⟨u', hYields', hExcept⟩ := h.yields hYields hFree
  obtain ⟨-, rfl, -⟩ := hYields.unique hYields'
  exact hExcept

namespace Blind

/-- An answer alone reads no table. -/
theorem pure (x : α) : Blind g name (Pure.pure x) :=
  InStep.pure fun _ _ => rfl

/-- Two parts that are blind for the name are so together. -/
theorem bind (h : Blind g name part) (hNext : ∀ x, Blind g name (next x)) :
    Blind g name (part >>= next) := by
  refine InStep.bind h fun _ _ x _ hSame => ?_
  rw [← hSame]
  exact hNext x

/-- Making something of the answer reads no table. -/
theorem bind_pure (h : Blind g name part) (make : α → β) :
    Blind g name (part >>= fun x => Pure.pure (make x)) :=
  h.bind fun x => pure (make x)

/-- Applying a function to the answer reads no table. -/
theorem map (h : Blind g name part) (make : α → β) : Blind g name (make <$> part) := by
  rw [map_eq_pure_bind]
  exact h.bind_pure make

/-- Parts in a row are blind if each of them is. -/
theorem mapM {step : α → Resolve β} {xs : List α} (h : ∀ x ∈ xs, Blind g name (step x)) :
    Blind g name (xs.mapM step) := by
  induction xs with
  | nil => exact pure []
  | cons x xs ih =>
    obtain ⟨hHead, hRest⟩ := List.forall_mem_cons.mp h
    rw [List.mapM_cons]
    exact hHead.bind fun y => (ih hRest).bind_pure fun ys => y :: ys

/-- A part in a scope of its own is as blind as the part. -/
theorem inScope (h : Blind g name part) : Blind g name (inScope part) :=
  InStep.inScope (exceptFor_keepsScopes g name) h

/-- A part that reports, and leaves its answer as it is. -/
theorem report (errors : List Diagnostic) (x : α) :
    Blind g name (Analysis.report errors >>= fun _ => Pure.pure x) :=
  fun _ _ _ _ h => .report errors (.pure h rfl)

/-- The number of the innermost scope is the same in both. -/
theorem currentScope {next : ScopeId → Resolve α} (h : ∀ k, Blind g name (next k)) :
    Blind g name (Analysis.currentScope >>= next) := by
  intro w hMore t u hExcept
  obtain ⟨k, rest, hStack⟩ := List.exists_cons_of_ne_nil hExcept.opened
  exact .currentScope (exceptFor_keepsScopes g name) hStack hExcept (h k w hMore t u hExcept)

end Blind

/-- The use of another name is blind. -/
theorem useIdent_blind {id : Ident} (hName : id.name ≠ name) : Blind g name (useIdent id) :=
  fun _ _ t u h => ⟨(), _, t, _, u, id.diagnose t, le_rfl, useIdent_yields id t,
    id.diagnose_except h hName ▸ useIdent_yields id u, h, rfl, (id.annotate_except h hName).symm⟩

/-- The use of a location without the name is blind. -/
theorem useLoc_blind {l : Loc} (hNames : Avoids name l.idents) : Blind g name (useLoc l) :=
  fun _ _ t u h => ⟨(), _, t, _, u, l.diagnose t, le_rfl, useLoc_yields l t,
    l.diagnose_except h hNames ▸ useLoc_yields l u, h, rfl, (l.annotate_except h hNames).symm⟩

/-- The uses of an expression without the name are blind. -/
theorem useExpr_blind {e : Expr} (hNames : Avoids name e.idents) : Blind g name (useExpr e) :=
  fun _ _ t u h => ⟨(), _, t, _, u, e.diagnose t, le_rfl, useExpr_yields e t,
    e.diagnose_except h hNames ▸ useExpr_yields e u, h, rfl, (e.annotate_except h hNames).symm⟩

theorem useExprs_blind {es : List Expr} (hNames : Avoids name (Expr.identsAll es)) :
    Blind g name (useExprs es) :=
  fun _ _ t u h => ⟨(), _, t, _, u, Expr.diagnoseAll t es, le_rfl, useExprs_yields es t,
    Expr.diagnoseAll_except h es hNames ▸ useExprs_yields es u, h, rfl,
    (Expr.annotateAll_except h es hNames).symm⟩

/-! ## Declarations -/

/-- The declaration of another name is blind. -/
theorem declare_blind {id : Ident} (hName : id.name ≠ name) (k : ScopeId) (meaning : Meaning) :
    Blind g name (declare k id meaning) := by
  intro w _ t u h
  refine .getTable ?_
  -- the scope binds the name of `id` in both tables or in none
  cases hDeclared : t.declareIn k id.name ⟨.declared k id.name, meaning⟩ with
  | none =>
    rw [h.declareIn_none hName hDeclared]
    exact .report _ (.pure h rfl)
  | some t' =>
    obtain ⟨u', hDeclared', hExcept⟩ := h.declareIn_some hName hDeclared
    rw [hDeclared']
    exact ⟨w, _, t', _, u', [], le_rfl, (setTable_yields t t').bind_silent (Yields.pure _ t'),
      (setTable_yields u u').bind_silent (Yields.pure _ u'), hExcept,
      (declareIn_eq_some hDeclared).2.1, rfl⟩

/-- The declaration of another name in the innermost scope is blind. -/
theorem declareHere_blind {id : Ident} (hName : id.name ≠ name) (meaning : Meaning) :
    Blind g name (declareHere id meaning) :=
  .currentScope fun k => declare_blind hName k meaning

theorem newScope_blind : Blind g name newScope :=
  fun w _ t u h => ⟨w, _, _, _, _, [], le_rfl, newScope_yields t, h.length ▸ newScope_yields u,
    h.newScope, rfl, rfl⟩

/-- A variable of another name and type is blind. -/
theorem VarDecl.resolveIn_blind {d : VarDecl} (hNames : Avoids name d.idents) (k : ScopeId) :
    Blind g name (d.resolveIn k) := by
  obtain ⟨-, hId⟩ := Avoids.append.mp hNames
  have hName := hId d.id List.mem_cons_self
  intro w hMore t u h
  refine .getTable ?_
  -- the conditions come out the same: a formal of the name, the type, a struct of its name
  rw [h.same k d.id.name hName]
  cases ((t.scope k).lookup d.id.name).filter Symbol.isFormal with
  | some formal => exact .pure h rfl
  | none =>
    cases d.type with
    | void => exact Blind.report _ d w hMore t u h
    | struct structId =>
      dsimp only
      rw [h.lookupStruct_eq]
      cases t.lookupStruct structId.name with
      | none => exact Blind.report _ d w hMore t u h
      | some struct => exact (declare_blind hName k _).bind_pure _ w hMore t u h
    | boolean | integer => exact (declare_blind hName k _).bind_pure _ w hMore t u h

/-- A variable of another name and type is blind in the innermost scope. -/
theorem VarDecl.resolve_blind {d : VarDecl} (hNames : Avoids name d.idents) :
    Blind g name d.resolve :=
  .currentScope fun k => d.resolveIn_blind hNames k

theorem Formal.resolve_blind {f : Formal} (hNames : Avoids name f.idents) :
    Blind g name f.resolve :=
  (declareHere_blind ((Avoids.append.mp hNames).2 f.id List.mem_cons_self) _).bind_pure _

/-! ## Statements -/

theorem avoids_flatMap {δ : Type} {idents : δ → List Ident} {ds : List δ}
    (h : Avoids name (ds.flatMap idents)) : ∀ d ∈ ds, Avoids name (idents d) :=
  fun d hd id hid => h id (List.mem_flatMap.mpr ⟨d, hd, hid⟩)

theorem varDecls_blind {ds : List VarDecl} (hNames : Avoids name (ds.flatMap VarDecl.idents)) :
    Blind g name (ds.mapM VarDecl.resolve) :=
  .mapM fun d hd => d.resolve_blind (avoids_flatMap hNames d hd)

/-- A block without the name is blind if its statements are. -/
theorem inBlock_blind {decls : List VarDecl} {stmts : Resolve (List Stmt)}
    (hNames : Avoids name (decls.flatMap VarDecl.idents)) (h : Blind g name stmts) :
    Blind g name (inBlock decls stmts) :=
  .inScope <| (varDecls_blind hNames).bind fun decls' => h.bind_pure (Block.mk decls')

mutual

/-- A statement without the name is blind. The list of identifiers is bracketed to the left, so
it comes apart from its end. -/
theorem Stmt.resolve_blind : (s : Stmt) → Avoids name s.idents → Blind g name s.resolve
  | .assign target value, hNames => by
    obtain ⟨hTarget, hValue⟩ := Avoids.append.mp hNames
    rw [Stmt.resolve]
    exact (useLoc_blind hTarget).bind fun _ => (useExpr_blind hValue).bind_pure _
  | .increment target, hNames | .decrement target, hNames | .read target, hNames => by
    rw [Stmt.resolve]
    exact (useLoc_blind hNames).bind_pure _
  | .write value, hNames | .ret (some value), hNames => by
    rw [Stmt.resolve]
    exact (useExpr_blind hNames).bind_pure _
  | .call callee args, hNames => by
    obtain ⟨hCallee, hArgs⟩ := Avoids.cons.mp hNames
    rw [Stmt.resolve]
    exact (useIdent_blind hCallee).bind fun _ => (useExprs_blind hArgs).bind_pure _
  | .ret none, _ => by
    rw [Stmt.resolve]
    exact .pure _
  -- the name is avoided by all parts of the block, so no step inside looks it up
  | .ifThen cond ⟨decls, stmts⟩, hNames | .loop cond ⟨decls, stmts⟩, hNames => by
    obtain ⟨hHead, hStmts⟩ := Avoids.append.mp hNames
    obtain ⟨hCond, hDecls⟩ := Avoids.append.mp hHead
    rw [Stmt.resolve]
    exact (useExpr_blind hCond).bind fun _ =>
      (inBlock_blind hDecls (Stmt.resolveAll_blind stmts hStmts)).bind_pure _
  | .ifElse cond ⟨decls, stmts⟩ ⟨elseDecls, elseStmts⟩, hNames => by
    obtain ⟨hFront, hElseStmts⟩ := Avoids.append.mp hNames
    obtain ⟨hThen, hElseDecls⟩ := Avoids.append.mp hFront
    obtain ⟨hHead, hStmts⟩ := Avoids.append.mp hThen
    obtain ⟨hCond, hDecls⟩ := Avoids.append.mp hHead
    rw [Stmt.resolve]
    exact (useExpr_blind hCond).bind fun _ =>
      (inBlock_blind hDecls (Stmt.resolveAll_blind stmts hStmts)).bind fun _ =>
        (inBlock_blind hElseDecls (Stmt.resolveAll_blind elseStmts hElseStmts)).bind_pure _

theorem Stmt.resolveAll_blind :
    (ss : List Stmt) → Avoids name (Stmt.identsAll ss) → Blind g name (Stmt.resolveAll ss)
  | [], _ => .pure []
  | s :: ss, hNames => by
    obtain ⟨hHead, hRest⟩ := Avoids.append.mp hNames
    rw [Stmt.resolveAll]
    exact (Stmt.resolve_blind s hHead).bind fun _ => (Stmt.resolveAll_blind ss hRest).bind_pure _

end

/-! ## Functions, structs and programs -/

/-- Variables of a function body without the name are blind, those that repeat a formal included. -/
theorem resolveLocals_blind {ds : List VarDecl} (seen : List String)
    (hNames : Avoids name (ds.flatMap VarDecl.idents)) : Blind g name (resolveLocals seen ds) := by
  induction ds generalizing seen with
  | nil => exact .pure []
  | cons d ds ih =>
    obtain ⟨hHead, hRest⟩ := Avoids.append.mp hNames
    have hName := (Avoids.append.mp hHead).2 d.id List.mem_cons_self
    intro w hMore t u h
    rw [resolveLocals]
    refine .getTable ?_
    -- whether the variable repeats a formal is asked of its own name, so both runs take the same
    -- branch
    simp only [h.lookupLocal_eq hName]
    have hTail : ∀ d', Blind g name
        (resolveLocals (d.id.name :: seen) ds >>= fun ds' => Pure.pure (d' :: ds')) :=
      fun d' => (ih (d.id.name :: seen) hRest).bind_pure fun ds' => d' :: ds'
    split
    · exact (Blind.bind (.report [.located .multiplyDeclared d.id.pos] d) hTail) w hMore t u h
    · exact ((d.resolve_blind hHead).bind hTail) w hMore t u h

/-- The body of a function without the name is blind. -/
theorem resolveBody_blind {body : Block Stmt} (hNames : Avoids name body.idents) :
    Blind g name (resolveBody body) := by
  obtain ⟨hDecls, hStmts⟩ := Avoids.append.mp hNames
  exact (resolveLocals_blind [] hDecls).bind fun _ =>
    (Stmt.resolveAll_blind body.stmts hStmts).bind_pure _

theorem formals_blind {fs : List Formal} (hNames : Avoids name (fs.flatMap Formal.idents)) :
    Blind g name (fs.mapM Formal.resolve) :=
  .mapM fun f hf => f.resolve_blind (avoids_flatMap hNames f hf)

/-- A function without the name is blind. -/
theorem FuncDecl.resolve_blind {f : FuncDecl} (hNames : Avoids name f.idents) :
    Blind g name f.resolve := by
  obtain ⟨hSignature, hBody⟩ := Avoids.append.mp hNames
  obtain ⟨hHead, hFormals⟩ := Avoids.append.mp hSignature
  refine (declareHere_blind ((Avoids.append.mp hHead).2 f.id List.mem_cons_self) _).bind
    fun _ => .inScope ?_
  exact (formals_blind hFormals).bind fun _ => (resolveBody_blind hBody).bind_pure _

theorem StructDecl.resolve_blind {s : StructDecl} (hNames : Avoids name s.idents) :
    Blind g name s.resolve := by
  obtain ⟨hId, hFields⟩ := Avoids.cons.mp hNames
  refine newScope_blind.bind fun k => (declareHere_blind hId _).bind fun _ => ?_
  refine Blind.bind_pure (.mapM fun d hd => ?_) _
  exact d.resolveIn_blind (avoids_flatMap hFields d hd) k

/-- A declaration without the name is blind. -/
theorem Decl.resolve_blind {d : Decl} (hNames : Avoids name d.idents) : Blind g name d.resolve := by
  cases d with
  | var d => exact (d.resolve_blind hNames).map Decl.var
  | func f => exact (f.resolve_blind hNames).map Decl.func
  | struct s => exact (s.resolve_blind hNames).map Decl.struct

end NameResolution
