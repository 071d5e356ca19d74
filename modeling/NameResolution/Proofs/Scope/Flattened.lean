import Mathlib.Data.List.Induction
import Mathlib.Data.List.Nodup
import NameResolution.Proofs.Scope.Frame

/-!
# Flattened scopes — all visible names at once against names looked up one by one

All visible names are gathered from the outermost scope inwards, where the last binding wins and
keeps the place of the first. A single name is looked up from the innermost scope outwards, where
the first binding wins. Both agree because a scope binds each name once.

* `SymbolTable.Reachable` — the tables that opening, leaving and declaring lead to.
* `SymbolTable.visible_agrees_with_lookup` — they show each name once, as it is looked up, in the
  order in which the scopes bind them.
-/

namespace NameResolution

variable {name : String} {symbol : Symbol}

/-! ## Names among bindings -/

/-- The front of the list is asked first. -/
theorem lookup_cons_eq_ite (binding : String × Symbol) (rest : List (String × Symbol))
    (name : String) : (binding :: rest).lookup name =
      if name = binding.1 then some binding.2 else rest.lookup name := by
  rw [List.lookup_cons]
  by_cases h : name = binding.1
  · rw [if_pos h, h, beq_self_eq_true]
  · rw [if_neg h, beq_false_of_ne h]

/-- A new name can be put behind distinct ones. -/
theorem nodup_snoc {names : List String} (h : names.Nodup) (hNew : name ∉ names) :
    (names ++ [name]).Nodup := by
  rw [← List.concat_eq_append, List.nodup_concat]
  exact ⟨hNew, h⟩

/-! ## Bindings that are overwritten -/

/-- A name that is there keeps its place, and another one comes last. -/
theorem SymbolTable.map_fst_overwrite (bindings : List (String × Symbol)) (name : String)
    (symbol : Symbol) : (overwrite bindings name symbol).map Prod.fst =
      if name ∈ bindings.map Prod.fst then bindings.map Prod.fst
      else bindings.map Prod.fst ++ [name] := by
  induction bindings with
  | nil => rfl
  | cons binding rest ih =>
    rw [overwrite]
    -- the name is at the front, further back, or new
    by_cases hName : binding.1 = name
    · rw [if_pos hName, if_pos (hName ▸ List.mem_cons_self)]
      rfl
    · rw [if_neg hName, List.map_cons, ih, List.map_cons]
      by_cases hRest : name ∈ rest.map Prod.fst
      · rw [if_pos hRest, if_pos (List.mem_cons_of_mem _ hRest)]
      · rw [if_neg hRest, if_neg, List.cons_append]
        exact List.not_mem_cons_of_ne_of_not_mem (Ne.symm hName) hRest

/-- The name stands for its new symbol, and all others for what they did. -/
theorem SymbolTable.lookup_overwrite (bindings : List (String × Symbol)) (bound : String)
    (symbol : Symbol) (name : String) : (overwrite bindings bound symbol).lookup name =
      if name = bound then some symbol else bindings.lookup name := by
  induction bindings with
  | nil => rw [overwrite, lookup_cons_eq_ite]
  | cons binding rest ih =>
    rw [overwrite]
    by_cases hBound : binding.1 = bound
    · rw [if_pos hBound, lookup_cons_eq_ite, lookup_cons_eq_ite, hBound]
      -- the name is overwritten where it stands
      by_cases h : name = bound
      · rw [if_pos h, if_pos h]
      · rw [if_neg h, if_neg h, if_neg h]
    · rw [if_neg hBound, lookup_cons_eq_ite, lookup_cons_eq_ite, ih]
      by_cases h : name = binding.1
      · rw [if_pos h, if_pos h, if_neg (h ▸ hBound)]
      · rw [if_neg h, if_neg h]

/-- The bindings after some more, each of them overwriting. -/
def SymbolTable.overwriteAll (bindings : List (String × Symbol)) : List (String × Symbol) :=
  bindings.foldl (fun seen (name, symbol) => overwrite seen name symbol) []

namespace SymbolTable

/-- The last binding overwrites what came before it. -/
theorem overwriteAll_snoc (bindings : List (String × Symbol)) (binding : String × Symbol) :
    overwriteAll (bindings ++ [binding]) =
      overwrite (overwriteAll bindings) binding.1 binding.2 :=
  List.foldl_append

/-- The names are in the order of their first bindings. -/
theorem map_fst_overwriteAll (bindings : List (String × Symbol)) :
    (overwriteAll bindings).map Prod.fst = (bindings.map Prod.fst).eraseDups := by
  induction bindings using List.reverseRecOn with
  | nil => rfl
  | append_singleton bindings binding ih =>
    rw [overwriteAll_snoc, map_fst_overwrite, ih, List.map_append, List.eraseDups_append]
    simp only [List.mem_eraseDups]
    -- a name that is there adds nothing to the names in their order
    by_cases h : binding.1 ∈ bindings.map Prod.fst
    · rw [if_pos h]
      simp [List.removeAll, h]
    · rw [if_neg h]
      simp [List.removeAll, h, List.eraseDups_cons]

/-- Overwriting keeps one binding of each name. -/
theorem overwriteAll_nodup (bindings : List (String × Symbol)) :
    ((overwriteAll bindings).map Prod.fst).Nodup := by
  induction bindings using List.reverseRecOn with
  | nil => exact List.nodup_nil
  | append_singleton bindings binding ih =>
    rw [overwriteAll_snoc, map_fst_overwrite]
    split
    · exact ih
    · rename_i hNew
      exact nodup_snoc ih hNew

/-- The last binding of a name wins. -/
theorem lookup_overwriteAll (bindings : List (String × Symbol)) (name : String) :
    (overwriteAll bindings).lookup name = bindings.reverse.lookup name := by
  induction bindings using List.reverseRecOn with
  | nil => rfl
  | append_singleton bindings binding ih =>
    rw [overwriteAll_snoc, lookup_overwrite, ih, List.reverse_concat, lookup_cons_eq_ite]

end SymbolTable

/-! ## Scopes that bind each name once -/

/-- No name is bound twice. -/
def Scope.Distinct (s : Scope) : Prop :=
  s.names.Nodup

namespace Scope

variable {s : Scope}

/-- Nothing is found exactly if the name is not bound. -/
theorem lookup_eq_none : s.lookup name = none ↔ name ∉ s.names := by
  rw [lookup, List.lookup_eq_none_iff, names, List.mem_map]
  constructor
  · rintro h ⟨binding, hMem, rfl⟩
    simpa using h binding hMem
  · intro h binding hMem
    rw [bne_iff_ne]
    exact fun hEq => h ⟨binding, hMem, hEq.symm⟩

/-- Where each name is bound once, the first binding is the last one. -/
theorem Distinct.lookup_reverse (h : s.Distinct) (name : String) :
    s.bindings.reverse.lookup name = s.lookup name := by
  obtain ⟨bindings⟩ := s
  induction bindings with
  | nil => rfl
  | cons binding rest ih =>
    obtain ⟨hFirst, hRest⟩ := List.nodup_cons.mp h
    rw [List.reverse_cons, List.lookup_append, ih hRest, lookup, lookup, lookup_cons_eq_ite,
      lookup_cons_eq_ite]
    -- the first binding of the name is the only one, so it is the last one as well
    by_cases hName : name = binding.1
    · have hNone : rest.lookup name = none := (lookup_eq_none (s := ⟨rest⟩)).mpr (hName ▸ hFirst)
      rw [if_pos hName, if_pos hName, hNone, Option.none_or]
    · rw [if_neg hName, if_neg hName, List.lookup_nil, Option.or_none]

/-- A free name can be bound. -/
theorem Distinct.bind (h : s.Distinct) (hFree : s.lookup name = none) :
    (s.bind name symbol).Distinct := by
  rw [Distinct, names, Scope.bind, List.map_append, List.map_singleton]
  exact nodup_snoc h (lookup_eq_none.mp hFree)

/-- With distinct names, the bindings are what is found. -/
theorem Distinct.mem_bindings (h : s.Distinct) :
    (name, symbol) ∈ s.bindings ↔ s.lookup name = some symbol := by
  refine ⟨fun hMem => ?_, mem_of_lookup⟩
  -- no binding in front of this one can have its name
  obtain ⟨before, rest, hSplit⟩ := List.append_of_mem hMem
  have hNames : (before.map Prod.fst ++ name :: rest.map Prod.fst).Nodup := by
    have hDistinct : (s.bindings.map Prod.fst).Nodup := h
    rwa [hSplit, List.map_append, List.map_cons] at hDistinct
  refine List.lookup_eq_some_iff.mpr ⟨before, rest, hSplit, fun binding hBinding => ?_⟩
  rw [bne_iff_ne]
  exact fun hEq => (List.nodup_append.mp hNames).2.2 binding.1 (List.mem_map_of_mem hBinding) name
    List.mem_cons_self hEq.symm

end Scope

/-! ## Tables -/

namespace SymbolTable

variable {t t' : SymbolTable} {k : ScopeId}

/-- The tables that a new one can become. Operations that fail or refuse a name lead nowhere new. -/
inductive Reachable : SymbolTable → Prop where
  | new : Reachable new
  | push {t : SymbolTable} (h : Reachable t) : Reachable t.push.2
  | pop {t t' : SymbolTable} {k : ScopeId} (h : Reachable t) (hPop : t.pop = .ok (k, t')) :
    Reachable t'
  | declare {t t' : SymbolTable} (name : String) (symbol : Symbol) (h : Reachable t)
    (hDeclare : t.declare name symbol = .ok (some t')) : Reachable t'
  /-- Names can also be declared in an open scope behind the innermost one. -/
  | declareIn {t t' : SymbolTable} (k : ScopeId) (name : String) (symbol : Symbol)
    (h : Reachable t) (hOpen : k ∈ t.stack) (hDeclare : t.declareIn k name symbol = some t') :
    Reachable t'

/-- A declaration keeps every scope's names distinct: it is refused where its name is bound. -/
theorem declareIn_distinct (h : ∀ j, (t.scope j).Distinct)
    (hDeclare : t.declareIn k name symbol = some t') : ∀ j, (t'.scope j).Distinct := by
  intro j
  rcases Nat.lt_or_ge k t.store.length with hMade | hMade
  · by_cases hj : j = k
    · rw [hj, declareIn_scope_self hMade hDeclare]
      exact (h k).bind (declareIn_eq_some hDeclare).1
    · rw [declareIn_scope_other hDeclare hj]
      exact h j
  · rw [declareIn_eq_self hMade hDeclare]
    exact h j

theorem Reachable.distinct (h : Reachable t) : ∀ j, (t.scope j).Distinct := by
  -- induction on the operations that led to the table
  induction h with
  | new =>
    intro j
    rw [new_scope]
    exact List.nodup_nil
  | push _ ih =>
    intro j
    rw [push_scope]
    exact ih j
  | @pop t t' k _ hPop ih =>
    cases hStack : t.stack with
    | nil =>
      rw [pop_of_empty hStack] at hPop
      cases hPop
    | cons k rest =>
      rw [pop_of_stack hStack] at hPop
      cases hPop
      exact ih
  -- a declaration adds a free name to the innermost scope
  | @declare t t' _ _ _ hDeclare ih =>
    cases hStack : t.stack with
    | nil =>
      rw [declare_of_empty hStack] at hDeclare
      cases hDeclare
    | cons k rest =>
      rw [declare_of_stack hStack] at hDeclare
      exact declareIn_distinct ih (Except.ok.inj hDeclare)
  | declareIn _ _ _ _ _ hDeclare ih => exact declareIn_distinct ih hDeclare

/-- Looking a name up from the innermost scope outwards finds what was gathered last. -/
theorem lookup_visible (h : ∀ j, (t.scope j).Distinct) (name : String) :
    t.visible.lookup name = t.lookup name := by
  show (overwriteAll _).lookup name = _
  -- read from the end, the bindings are in the order of the stack
  rw [lookup_overwriteAll, List.reverse_flatMap, List.reverse_reverse, lookup]
  induction t.stack with
  | nil => rfl
  | cons k rest ih =>
    rw [List.flatMap_cons, List.lookup_append, ih, List.findSome?_cons, Function.comp_apply,
      (h k).lookup_reverse]
    cases (t.scope k).lookup name <;> rfl

/-- **All visible names.** In a table that opening, leaving and declaring lead to, all visible names
are shown once each, namely those that a lookup finds. Each is shown with the symbol that is found,
and they come in the order of their first bindings, from the outermost scope inwards. -/
theorem visible_agrees_with_lookup (h : Reachable t) :
    (t.visible.map Prod.fst).Nodup ∧
      (∀ name, name ∈ t.visible.map Prod.fst ↔ ∃ symbol, t.lookup name = some symbol) ∧
      (∀ name symbol, (name, symbol) ∈ t.visible ↔ t.lookup name = some symbol) ∧
      t.visible.map Prod.fst = (t.stack.reverse.flatMap fun k => (t.scope k).names).eraseDups := by
  -- both sides of the last three parts speak of lookups in the gathered bindings
  have hNames : (⟨t.visible⟩ : Scope).Distinct := overwriteAll_nodup _
  have hLookup (name : String) : (⟨t.visible⟩ : Scope).lookup name = t.lookup name :=
    lookup_visible h.distinct name
  refine ⟨hNames, fun name => ?_, fun name symbol => ?_, ?_⟩
  · rw [← hLookup, ← Option.isSome_iff_exists, ← Option.ne_none_iff_isSome, Ne,
      Scope.lookup_eq_none, not_not]
    rfl
  · rw [← hLookup]
    exact hNames.mem_bindings
  · -- overwriting keeps the places of the names, whatever becomes of their symbols
    show (overwriteAll _).map Prod.fst = _
    rw [map_fst_overwriteAll, List.map_flatMap]
    rfl

/-- An integer that is declared in a scope. -/
def integerIn (k : ScopeId) (name : String) : Symbol :=
  ⟨.declared k name, .regular "integer"⟩

/-- Two open scopes with a name in common, the outer one filled again after the inner one. -/
def layeredTable : SymbolTable where
  store :=
    [⟨[("x", integerIn 0 "x"), ("y", integerIn 0 "y"), ("z", integerIn 0 "z")]⟩,
      ⟨[("y", integerIn 1 "y"), ("w", integerIn 1 "w")]⟩]
  stack := [1, 0]

/-- The inner `y` is shown where the outer one stands. -/
theorem layeredTable_visible_agrees :
    Reachable layeredTable ∧ (layeredTable.visible.map Prod.fst).Nodup ∧
      (∀ name symbol, (name, symbol) ∈ layeredTable.visible ↔
        layeredTable.lookup name = some symbol) ∧
      layeredTable.visible.map Prod.fst = ["x", "y", "z", "w"] ∧
      layeredTable.lookup "y" = some (integerIn 1 "y") := by
  -- the table is built step by step, and each declaration is accepted
  have hReachable : Reachable layeredTable := by
    have hOuter := Reachable.new.declare "x" (integerIn 0 "x") rfl
    have hInner := (hOuter.declare "y" (integerIn 0 "y") rfl).push.declare "y" (integerIn 1 "y") rfl
    have hFilled := hInner.declare "w" (integerIn 1 "w") rfl
    exact hFilled.declareIn 0 "z" (integerIn 0 "z") (by decide) rfl
  obtain ⟨hNodup, -, hMem, -⟩ := visible_agrees_with_lookup hReachable
  exact ⟨hReachable, hNodup, hMem, by decide, by decide⟩

end SymbolTable

end NameResolution
