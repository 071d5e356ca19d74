import NameResolution.Scope.SymbolTable

/-!
# Symbol tables — what each operation changes

Opening, leaving and making scopes never changes what a scope binds. Declaring a name changes one
scope, and there only what that name stands for.
-/

namespace NameResolution

/-! ## One scope -/

/-- A binding at the end counts only where no earlier one does. -/
theorem Scope.lookup_bind (s : Scope) (bound : String) (symbol : Symbol) (name : String) :
    (s.bind bound symbol).lookup name =
      (s.lookup name).or (if bound = name then some symbol else none) := by
  rw [Scope.bind, Scope.lookup, List.lookup_append, List.lookup_cons, List.lookup_nil]
  congr 1
  by_cases h : bound = name
  · rw [if_pos h, h, beq_self_eq_true]
  · rw [if_neg h, beq_false_of_ne (Ne.symm h)]

/-- What is found is one of the bindings. -/
theorem Scope.mem_of_lookup {s : Scope} {name : String} {symbol : Symbol}
    (h : s.lookup name = some symbol) : (name, symbol) ∈ s.bindings := by
  obtain ⟨before, after, hBindings, -⟩ := List.lookup_eq_some_iff.mp h
  rw [hBindings]
  exact List.mem_append_right _ List.mem_cons_self

namespace SymbolTable

variable {t t' : SymbolTable} {id : ScopeId} {rest : List ScopeId} {name : String} {symbol : Symbol}

/-! ## Making and opening scopes -/

@[simp] theorem new_scope (k : ScopeId) : new.scope k = {} := by
  cases k <;> rfl

@[simp] theorem newScope_stack (t : SymbolTable) : t.newScope.2.stack = t.stack := rfl

@[simp] theorem newScope_length (t : SymbolTable) :
    t.newScope.2.store.length = t.store.length + 1 := by
  simp [newScope]

/-- A number that no scope has yet reads as an empty scope, so a new one changes nothing. -/
@[simp] theorem newScope_scope (t : SymbolTable) (k : ScopeId) :
    t.newScope.2.scope k = t.scope k := by
  unfold scope newScope
  rw [List.getD_eq_getElem?_getD, List.getD_eq_getElem?_getD, List.getElem?_append]
  split
  · rfl
  · rename_i h
    rw [List.getElem?_eq_none (Nat.le_of_not_lt h)]
    -- the new scope is empty, and so is every number behind it
    cases k - t.store.length <;> rfl

/-- No scope has the next number or a later one yet. -/
theorem scope_of_length_le {k : ScopeId} (h : t.store.length ≤ k) : t.scope k = {} := by
  rw [scope, List.getD_eq_getElem?_getD, List.getElem?_eq_none h]
  rfl

@[simp] theorem push_stack (t : SymbolTable) : t.push.2.stack = t.store.length :: t.stack := rfl

@[simp] theorem push_length (t : SymbolTable) :
    t.push.2.store.length = t.store.length + 1 :=
  newScope_length t

/-- What is as long as the store with a new scope is as long as the store without it. -/
theorem length_le_of_push {n : Nat} (h : t.push.2.store.length ≤ n) : t.store.length ≤ n :=
  Nat.le_of_succ_le (Nat.le_trans (Nat.le_of_eq (push_length t).symm) h)

@[simp] theorem push_scope (t : SymbolTable) (k : ScopeId) : t.push.2.scope k = t.scope k :=
  newScope_scope t k

@[simp] theorem restart_stack (t : SymbolTable) : t.restart.stack = [t.store.length] := rfl

@[simp] theorem restart_length (t : SymbolTable) :
    t.restart.store.length = t.store.length + 1 :=
  newScope_length t

@[simp] theorem restart_scope (t : SymbolTable) (k : ScopeId) : t.restart.scope k = t.scope k :=
  newScope_scope t k

/-! ## The innermost scope -/

/-- The innermost scope is closed and named. -/
theorem pop_of_stack (h : t.stack = id :: rest) : t.pop = .ok (id, { t with stack := rest }) := by
  rw [pop, h]

/-- There is nothing to close if no scope is open. -/
theorem pop_of_empty (h : t.stack = []) : t.pop = .error .nothingToPop := by
  rw [pop, h]

/-- A declaration goes to the innermost scope. -/
theorem declare_of_stack (h : t.stack = id :: rest) :
    t.declare name symbol = .ok (t.declareIn id name symbol) := by
  rw [declare, current, h]
  rfl

/-- There is nowhere to declare if no scope is open. -/
theorem declare_of_empty (h : t.stack = []) : t.declare name symbol = .error .noScope := by
  rw [declare, current, h]
  rfl

/-- Without an open scope, and only then, there is nothing to leave. -/
theorem pop_eq_error {error : ScopeError} :
    t.pop = .error error ↔ t.stack = [] ∧ error = .nothingToPop := by
  cases hStack : t.stack with
  | nil => simp [pop_of_empty hStack, eq_comm]
  | cons k rest => simp [pop_of_stack hStack]

/-- A declaration fails only if no scope is open. -/
theorem declare_eq_error {error : ScopeError} :
    t.declare name symbol = .error error ↔ t.stack = [] ∧ error = .noScope := by
  cases hStack : t.stack with
  | nil => simp [declare_of_empty hStack, eq_comm]
  | cons k rest => simp [declare_of_stack hStack]

/-! ## Declaring -/

/-- A name is refused where its scope binds it already. -/
theorem declareIn_eq_none :
    t.declareIn id name symbol = none ↔ ((t.scope id).lookup name).isSome := by
  unfold declareIn Scope.contains
  split
  · rename_i h
    simp [h]
  · rename_i h
    simpa using h

/-- What declaring a name changes: its scope has one more binding at the end. -/
theorem declareIn_eq_some (h : t.declareIn id name symbol = some t') :
    (t.scope id).lookup name = none ∧ t'.stack = t.stack ∧
      t'.store = t.store.set id ((t.scope id).bind name symbol) := by
  unfold declareIn Scope.contains at h
  split at h
  · exact absurd h (by simp)
  · rename_i hfree
    obtain rfl := Option.some.inj h
    exact ⟨by simpa using hfree, rfl, rfl⟩

/-- A declaration makes no scope. -/
theorem declareIn_length (h : t.declareIn id name symbol = some t') :
    t'.store.length = t.store.length := by
  rw [(declareIn_eq_some h).2.2, List.length_set]

/-- Nothing is bound under a number that no scope has. -/
theorem declareIn_eq_self (hid : t.store.length ≤ id)
    (h : t.declareIn id name symbol = some t') : t' = t := by
  obtain ⟨-, hStack, hStore⟩ := declareIn_eq_some h
  rw [List.set_eq_of_length_le hid] at hStore
  cases t
  cases t'
  exact congr (congrArg SymbolTable.mk hStore) hStack

/-- The scope of the declaration gains the binding. -/
theorem declareIn_scope_self (hid : id < t.store.length)
    (h : t.declareIn id name symbol = some t') :
    t'.scope id = (t.scope id).bind name symbol := by
  rw [scope, (declareIn_eq_some h).2.2, List.getD_eq_getElem?_getD,
    List.getElem?_set_self hid]
  rfl

/-- All other scopes stay as they are. -/
theorem declareIn_scope_other (h : t.declareIn id name symbol = some t') {k : ScopeId}
    (hk : k ≠ id) : t'.scope k = t.scope k := by
  rw [scope, scope, (declareIn_eq_some h).2.2, List.getD_eq_getElem?_getD,
    List.getD_eq_getElem?_getD, List.getElem?_set_ne (Ne.symm hk)]

/-- What every name stands for in every scope after a declaration. -/
theorem lookup_declareIn_eq (hid : id < t.store.length)
    (h : t.declareIn id name symbol = some t') (k : ScopeId) (bound : String) :
    (t'.scope k).lookup bound =
      ((t.scope k).lookup bound).or (if k = id ∧ name = bound then some symbol else none) := by
  by_cases hk : k = id
  · subst hk
    simp only [declareIn_scope_self hid h, Scope.lookup_bind, true_and]
  · rw [declareIn_scope_other h hk, if_neg fun hBoth => hk hBoth.1, Option.or_none]

/-- Declaring a name adds its own binding to its scope, and takes none away. -/
theorem lookup_declareIn (hid : id < t.store.length)
    (h : t.declareIn id name symbol = some t') {k : ScopeId} {bound : String} {found : Symbol} :
    (t'.scope k).lookup bound = some found ↔
      (t.scope k).lookup bound = some found ∨ (k = id ∧ bound = name ∧ found = symbol) := by
  by_cases hk : k = id
  · subst hk
    rw [declareIn_scope_self hid h, Scope.lookup_bind, Option.or_eq_some_iff]
    by_cases hName : bound = name
    -- the name was free
    · subst hName
      simp [(declareIn_eq_some h).1, eq_comm]
    · simp [hName, Ne.symm hName]
  · rw [declareIn_scope_other h hk]
    simp [hk]

end SymbolTable

end NameResolution
