import NameResolution.Proofs.Scope.Table

/-!
# Frames — the open scopes, and what is left of them as it was

A scope that has been left stays in the store, so a symbol table never loses a scope. What some
operations leave alone is said of the scopes that there were before them.

* `SymbolTable.Frame` — all scopes that there were bind what they did.
* `SymbolTable.Touches` — one scope may bind more, the others bind what they did.
* `SymbolTable.Sound` — the open scopes are distinct ones that have been made.
-/

namespace NameResolution.SymbolTable

variable {t t' t'' : SymbolTable} {k : ScopeId} {rest : List ScopeId}

/-! ## Open scopes -/

/-- The open scopes with what they bind, the innermost first. -/
def openScopes (t : SymbolTable) : List Scope :=
  t.stack.map t.scope

/-- The open scopes are distinct ones that have been made, and there is one. -/
structure Sound (t : SymbolTable) : Prop where
  opened : t.stack ≠ []
  nodup : t.stack.Nodup
  made : ∀ k ∈ t.stack, k < t.store.length

/-- A sound table has an innermost scope. -/
theorem Sound.exists_innermost (h : t.Sound) : ∃ k rest, t.stack = k :: rest :=
  List.exists_cons_of_ne_nil h.opened

/-- The innermost scope of a sound table has been made. -/
theorem Sound.innermost_made (h : t.Sound) (hStack : t.stack = k :: rest) :
    k < t.store.length :=
  h.made k (hStack ▸ List.mem_cons_self)

/-- Soundness depends on the stack and on how many scopes there are. -/
theorem Sound.of_stack (h : t.Sound) (hStack : t'.stack = t.stack)
    (hLength : t.store.length ≤ t'.store.length) : t'.Sound where
  opened := hStack ▸ h.opened
  nodup := hStack ▸ h.nodup
  made k hk := Nat.lt_of_lt_of_le (h.made k (hStack ▸ hk)) hLength

/-- The scope that is opened is made at the same time. -/
theorem push_made (h : ∀ k ∈ t.stack, k < t.store.length) :
    ∀ k ∈ t.push.2.stack, k < t.push.2.store.length := by
  intro k hk
  rw [push_stack, List.mem_cons] at hk
  rw [push_length]
  rcases hk with rfl | hk
  · exact Nat.lt_succ_self _
  · exact Nat.lt_succ_of_lt (h k hk)

/-- Opening a scope keeps a table sound. -/
theorem Sound.push (h : t.Sound) : t.push.2.Sound where
  opened := List.cons_ne_nil _ _
  nodup := by
    -- no open scope has the next number
    rw [push_stack, List.nodup_cons]
    exact ⟨fun hMem => Nat.lt_irrefl _ (h.made _ hMem), h.nodup⟩
  made := push_made h.made

/-- A table that starts over is sound. -/
theorem Sound.restart (t : SymbolTable) : t.restart.Sound where
  opened := List.cons_ne_nil _ _
  nodup := by simp
  made k hk := by
    rw [restart_stack, List.mem_singleton] at hk
    rw [restart_length, hk]
    exact Nat.lt_succ_self _

/-! ## Scopes that stay as they are -/

/-- The same scopes are open, and every scope that there was binds what it did. -/
structure Frame (t t' : SymbolTable) : Prop where
  stack : t'.stack = t.stack
  length : t.store.length ≤ t'.store.length
  scope : ∀ k, k < t.store.length → t'.scope k = t.scope k

/-- The same scopes are open, and of the scopes that there were only `k` may bind more. -/
structure Touches (k : ScopeId) (t t' : SymbolTable) : Prop where
  stack : t'.stack = t.stack
  length : t.store.length ≤ t'.store.length
  other : ∀ j, j < t.store.length → j ≠ k → t'.scope j = t.scope j

namespace Frame

/-- Nothing changes if nothing happens. -/
theorem refl (t : SymbolTable) : Frame t t :=
  ⟨rfl, Nat.le_refl _, fun _ _ => rfl⟩

theorem trans (h : Frame t t') (h' : Frame t' t'') : Frame t t'' where
  stack := h'.stack.trans h.stack
  length := Nat.le_trans h.length h'.length
  scope k hk := by
    rw [h'.scope k (Nat.lt_of_lt_of_le hk h.length), h.scope k hk]

/-- A table with the same stack and no fewer scopes is sound as before. -/
theorem sound (h : Frame t t') (hSound : t.Sound) : t'.Sound :=
  hSound.of_stack h.stack h.length

/-- What changes no scope touches at most the one that is named. -/
theorem touches (h : Frame t t') (k : ScopeId) : Touches k t t' :=
  ⟨h.stack, h.length, fun j hj _ => h.scope j hj⟩

/-- The open scopes bind what they did. -/
theorem openScopes_eq_of_made (h : Frame t t') (hMade : ∀ k ∈ t.stack, k < t.store.length) :
    t'.openScopes = t.openScopes := by
  rw [openScopes, openScopes, h.stack]
  exact List.map_congr_left fun j hj => h.scope j (hMade j hj)

/-- The open scopes and their bindings are the same. -/
theorem openScopes_eq (h : Frame t t') (hSound : t.Sound) :
    t'.openScopes = t.openScopes :=
  h.openScopes_eq_of_made hSound.made

end Frame

namespace Touches

/-- Nothing is touched if nothing happens. -/
theorem refl (k : ScopeId) (t : SymbolTable) : Touches k t t :=
  (Frame.refl t).touches k

/-- Touching one scope keeps a table sound. -/
theorem sound (h : Touches k t t') (hSound : t.Sound) : t'.Sound :=
  hSound.of_stack h.stack h.length

theorem trans (h : Touches k t t') (h' : Touches k t' t'') : Touches k t t'' where
  stack := h'.stack.trans h.stack
  length := Nat.le_trans h.length h'.length
  other j hj hk := by
    rw [h'.other j (Nat.lt_of_lt_of_le hj h.length) hk, h.other j hj hk]

/-- When a scope is left, all that was declared in it is gone. -/
theorem leave (h : Touches t.store.length t.push.2 t') : Frame t { t' with stack := t.stack } where
  stack := rfl
  length := by
    have hLength := h.length
    rw [push_length] at hLength
    exact Nat.le_of_succ_le hLength
  scope j hj := by
    show t'.scope j = t.scope j
    -- the new scope has the next number
    rw [h.other j (push_length t ▸ Nat.lt_succ_of_lt hj) (Nat.ne_of_lt hj), push_scope]

end Touches

/-! ## Names in the open scopes -/

/-- What a name means is read off the open scopes. -/
theorem lookup_eq_openScopes (t : SymbolTable) (name : String) :
    t.lookup name = t.openScopes.findSome? (Scope.lookup · name) := by
  rw [lookup, openScopes, List.findSome?_map]
  rfl

/-- A local lookup asks the innermost of the open scopes. -/
theorem lookupLocal_eq_openScopes (t : SymbolTable) (name : String) :
    t.lookupLocal name = t.openScopes.head?.bind (Scope.lookup · name) := by
  rw [lookupLocal, openScopes, List.head?_map, Option.bind_map]
  rfl

/-- Nothing is bound in a scope that has just been opened. -/
theorem lookupLocal_push (t : SymbolTable) (name : String) : t.push.2.lookupLocal name = none := by
  rw [lookupLocal, push_stack, List.head?_cons, Option.bind_some, push_scope,
    scope_of_length_le (Nat.le_refl _)]
  rfl

/-- All names are seen through it. -/
theorem lookup_push (t : SymbolTable) (name : String) : t.push.2.lookup name = t.lookup name := by
  have hEmpty : (t.push.2.scope t.store.length).lookup name = none := lookupLocal_push t name
  rw [lookup, push_stack, List.findSome?_cons, hEmpty]
  simp only [push_scope]
  rfl

end NameResolution.SymbolTable
