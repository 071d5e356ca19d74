import Mathlib.Data.List.Induction
import NameResolution.Proofs.Scope.Frame

/-!
# Histories — a symbol table told from what was done to it

A symbol table that started as a new one is known from the operations since then. Which scopes are
open is a matter of the openings and leavings alone, and a name means what was declared for it while
its scope was the innermost one. An operation that fails, because no scope is open, counts for
nothing.

* `SymbolTable.live` — the open scopes, from the operations alone.
* `SymbolTable.Declared` — a declaration that went through, and the scope it was made in.
* `SymbolTable.Told` — all that the operations say of the table.
* `SymbolTable.told_by_history` — they say it of every table.
-/

namespace NameResolution.SymbolTable

/-! ## Operations -/

/-- What is done to a symbol table. -/
inductive Operation where
  | push
  | pop
  | declare (name : String) (symbol : Symbol)
deriving DecidableEq, Repr

namespace Operation

/-- The table after an operation, if there is a scope for it. A name that its scope binds already
changes nothing. -/
def run (t : SymbolTable) : Operation → Except ScopeError SymbolTable
  | push => .ok t.push.2
  | pop => t.pop.map (·.2)
  | declare name symbol => (t.declare name symbol).map (·.getD t)

/-- The table that there is after an operation, gone through or not. -/
def apply (t : SymbolTable) (op : Operation) : SymbolTable :=
  match op.run t with
  | .ok t' => t'
  | .error _ => t

end Operation

/-- A new table after some operations. -/
def after (ops : List Operation) : SymbolTable :=
  ops.foldl Operation.apply new

/-! ## What the operations say -/

/-- The open scopes, the innermost first, when each is named by how many there were before it. -/
structure Live where
  /-- How many scopes there have been. -/
  count : Nat
  scopes : List ScopeId
deriving DecidableEq, Repr

/-- An opening adds a scope, and a leaving takes the innermost one away. -/
def Live.next : Live → Operation → Live
  | ⟨count, scopes⟩, .push => ⟨count + 1, count :: scopes⟩
  | ⟨count, scopes⟩, .pop => ⟨count, scopes.tail⟩
  | now, .declare _ _ => now

/-- From the global scope on. -/
def live (ops : List Operation) : Live :=
  ops.foldl Live.next ⟨1, [0]⟩

/-- The innermost scope takes the name after the operations. -/
def Accepts (ops : List Operation) (name : String) (symbol : Symbol) : Prop :=
  ∃ t, (after ops).declare name symbol = .ok (some t)

/-- One of the operations is a declaration of the name that went through while `k` was the innermost
scope. -/
def Declared (ops : List Operation) (k : ScopeId) (name : String) (symbol : Symbol) : Prop :=
  ∃ earlier later, ops = earlier ++ .declare name symbol :: later ∧
    (live earlier).scopes.head? = some k ∧ Accepts earlier name symbol

/-- Operations that leave each scope that they open, and no other. -/
inductive Bracketed : List Operation → Prop where
  | nil : Bracketed []
  | declare (name : String) (symbol : Symbol) : Bracketed [.declare name symbol]
  | append {ops ops' : List Operation} (h : Bracketed ops) (h' : Bracketed ops') :
    Bracketed (ops ++ ops')
  | nested {ops : List Operation} (h : Bracketed ops) : Bracketed (.push :: ops ++ [.pop])

/-- All that the operations say of the table after them. -/
structure Told (ops : List Operation) : Prop where
  depth : (after ops).depth = (live ops).scopes.length
  /-- Leaving fails where no scope is open, and only there. -/
  pop : ∀ error, (after ops).pop = .error error ↔
    (live ops).scopes = [] ∧ error = .nothingToPop
  declare : ∀ name symbol error, (after ops).declare name symbol = .error error ↔
    (live ops).scopes = [] ∧ error = .noScope
  /-- An operation that fails might as well not be there. Its error comes without a table: leaving
  and declaring look for an open scope before they change anything. -/
  failed : ∀ op error, op.run (after ops) = .error error → ∀ later,
    after (ops ++ op :: later) = after (ops ++ later)
  /-- A scope can always be opened. It is empty, and the others are seen through it. -/
  push : (after (ops ++ [.push])).depth = (after ops).depth + 1 ∧ ∀ name,
    (after (ops ++ [.push])).lookupLocal name = none ∧
      (after (ops ++ [.push])).lookup name = (after ops).lookup name
  /-- A declaration goes through exactly if none of the name did in the same scope. -/
  accepts : ∀ name symbol, Accepts ops name symbol ↔
    ∃ k, (live ops).scopes.head? = some k ∧ ∀ earlier, ¬ Declared ops k name earlier
  /-- In the innermost scope a name means what was declared for it there. -/
  lookupLocal : ∀ name symbol, (after ops).lookupLocal name = some symbol ↔
    ∃ k, (live ops).scopes.head? = some k ∧ Declared ops k name symbol
  /-- A name means what was declared for it in the innermost open scope that has it. -/
  lookup : ∀ name symbol, (after ops).lookup name = some symbol ↔
    ∃ inner k outer, (live ops).scopes = inner ++ k :: outer ∧
      (∀ j ∈ inner, ∀ other, ¬ Declared ops j name other) ∧ Declared ops k name symbol
  unbound : ∀ name, (after ops).lookup name = none ↔
    ∀ k ∈ (live ops).scopes, ∀ symbol, ¬ Declared ops k name symbol
  /-- What is done in a scope of its own is gone when that scope is left. -/
  bracketed : ∀ inside, Bracketed inside →
    (after (ops ++ .push :: inside ++ [.pop])).depth = (after ops).depth ∧ ∀ name,
      (after (ops ++ .push :: inside ++ [.pop])).lookup name = (after ops).lookup name ∧
      (after (ops ++ .push :: inside ++ [.pop])).lookupLocal name = (after ops).lookupLocal name

variable {t t' : SymbolTable} {ops ops' : List Operation} {op : Operation} {k : ScopeId}
  {name : String} {symbol : Symbol}

/-! ## One operation more -/

/-- The table after some operations and then some more. -/
theorem after_append (ops ops' : List Operation) :
    after (ops ++ ops') = ops'.foldl Operation.apply (after ops) :=
  List.foldl_append

/-- The table after one operation more. -/
theorem after_snoc (ops : List Operation) (op : Operation) :
    after (ops ++ [op]) = op.apply (after ops) :=
  after_append ops [op]

/-- The open scopes after one operation more. -/
theorem live_snoc (ops : List Operation) (op : Operation) :
    live (ops ++ [op]) = (live ops).next op :=
  List.foldl_append

/-- Only a declaration that goes through adds to what has been declared. -/
theorem declared_snoc : Declared (ops ++ [op]) k name symbol ↔ Declared ops k name symbol ∨
    op = .declare name symbol ∧ (live ops).scopes.head? = some k ∧ Accepts ops name symbol := by
  constructor
  · rintro ⟨earlier, later, hSplit, hTop, hAccepts⟩
    -- the declaration is the last operation, or there is a last one behind it
    rcases List.eq_nil_or_concat later with rfl | ⟨later, last, rfl⟩
    · obtain ⟨rfl, hLast⟩ := List.append_inj' hSplit rfl
      exact .inr ⟨List.singleton_inj.mp hLast, hTop, hAccepts⟩
    · rw [List.concat_eq_append, ← List.cons_append, ← List.append_assoc] at hSplit
      exact .inl ⟨earlier, later, (List.append_inj' hSplit rfl).1, hTop, hAccepts⟩
  · rintro (⟨earlier, later, rfl, hTop, hAccepts⟩ | ⟨rfl, hTop, hAccepts⟩)
    · exact ⟨earlier, later ++ [op], by simp, hTop, hAccepts⟩
    · exact ⟨ops, [], rfl, hTop, hAccepts⟩

/-! ## The invariant -/

/-- The table is the one that the operations tell of: the same scopes are open, and each of the
scopes that there have been binds what was declared in it. -/
structure Traces (ops : List Operation) (t : SymbolTable) : Prop where
  stack : t.stack = (live ops).scopes
  count : t.store.length = (live ops).count
  made : ∀ j ∈ t.stack, j < t.store.length
  bound : ∀ j name symbol, (t.scope j).lookup name = some symbol ↔ Declared ops j name symbol

namespace Traces

theorem new : Traces [] new where
  stack := rfl
  count := rfl
  made j hj := by
    obtain rfl := List.mem_singleton.mp hj
    exact Nat.zero_lt_one
  bound j name symbol := by
    rw [new_scope]
    -- no operation has declared anything yet
    constructor
    · intro h
      cases h
    · rintro ⟨earlier, later, hSplit, -⟩
      cases earlier <;> cases hSplit

/-- An operation that declares nothing, and after which all scopes bind what they did. -/
theorem bound_of_scopes (h : Traces ops t) (hScopes : ∀ j, t'.scope j = t.scope j)
    (hOp : ∀ name symbol, op = .declare name symbol → ¬ Accepts ops name symbol) :
    ∀ j name symbol, (t'.scope j).lookup name = some symbol ↔
      Declared (ops ++ [op]) j name symbol := by
  intro j name symbol
  rw [hScopes, h.bound, declared_snoc]
  exact ⟨.inl, fun hOr => hOr.resolve_right fun hNew => hOp name symbol hNew.1 hNew.2.2⟩

/-- Opening a scope changes the stack as the history says. -/
theorem push (h : Traces ops t) : Traces (ops ++ [.push]) t.push.2 where
  stack := by rw [push_stack, live_snoc, Live.next, h.stack, h.count]
  count := by rw [push_length, live_snoc, Live.next, h.count]
  made := push_made h.made
  bound := h.bound_of_scopes (push_scope t) (by rintro name symbol ⟨⟩)

theorem pop (h : Traces ops t) : Traces (ops ++ [.pop]) (Operation.pop.apply t) := by
  -- with no scope open both the table and the history stay as they are
  have hTable : Operation.pop.apply t = { t with stack := t.stack.tail } := by
    rw [Operation.apply, Operation.run]
    cases hStack : t.stack with
    | nil =>
      rw [pop_of_empty hStack, List.tail_nil, ← hStack]
      rfl
    | cons k rest =>
      rw [pop_of_stack hStack]
      rfl
  rw [hTable]
  exact
    { stack := by rw [live_snoc, Live.next, h.stack]
      count := by rw [live_snoc, Live.next, h.count]
      made := fun j hj => h.made j (List.mem_of_mem_tail hj)
      bound := h.bound_of_scopes (fun _ => rfl) (by rintro name symbol ⟨⟩) }

/-- A declaration that is refused, or for which there is no scope. -/
theorem refused (h : Traces ops (after ops)) (hRefused : ¬ Accepts ops name symbol) :
    Traces (ops ++ [.declare name symbol]) (after ops) where
  stack := by rw [live_snoc, Live.next, h.stack]
  count := by rw [live_snoc, Live.next, h.count]
  made := h.made
  bound := h.bound_of_scopes (fun _ => rfl) (by rintro _ _ ⟨⟩; exact hRefused)

/-- A declaration that goes through is in the history, in the innermost scope. -/
theorem accepted {rest : List ScopeId} (h : Traces ops (after ops))
    (hStack : (after ops).stack = k :: rest)
    (hDeclared : (after ops).declareIn k name symbol = some t') :
    Traces (ops ++ [.declare name symbol]) t' where
  stack := by rw [(declareIn_eq_some hDeclared).2.1, live_snoc, Live.next, h.stack]
  count := by rw [declareIn_length hDeclared, live_snoc, Live.next, h.count]
  made j hj := by
    rw [(declareIn_eq_some hDeclared).2.1] at hj
    rw [declareIn_length hDeclared]
    exact h.made j hj
  bound j bound found := by
    have hAccepts : Accepts ops name symbol :=
      ⟨t', by rw [declare_of_stack hStack, hDeclared]⟩
    have hTop : (live ops).scopes.head? = some k := by rw [← h.stack, hStack, List.head?_cons]
    have hMade : k < (after ops).store.length := h.made k (hStack ▸ List.mem_cons_self)
    -- the table and the operations gain one binding each, and it is the same one
    rw [lookup_declareIn hMade hDeclared, h.bound, declared_snoc]
    refine or_congr Iff.rfl ⟨?_, ?_⟩
    · rintro ⟨rfl, rfl, rfl⟩
      exact ⟨rfl, hTop, hAccepts⟩
    · rintro ⟨hOp, hOther, -⟩
      rw [hTop] at hOther
      cases hOp
      exact ⟨(Option.some.inj hOther).symm, rfl, rfl⟩

theorem declare (h : Traces ops (after ops)) (name : String) (symbol : Symbol) :
    Traces (ops ++ [.declare name symbol]) ((Operation.declare name symbol).apply (after ops)) := by
  -- a declaration fails, is refused or goes through, and only the last case binds anything
  cases hStack : (after ops).stack with
  | nil =>
    have hFails : (after ops).declare name symbol = .error .noScope := declare_of_empty hStack
    rw [Operation.apply, Operation.run, hFails]
    refine h.refused ?_
    rintro ⟨t, hOk⟩
    rw [hFails] at hOk
    cases hOk
  | cons k rest =>
    have hOk : (after ops).declare name symbol = .ok ((after ops).declareIn k name symbol) :=
      declare_of_stack hStack
    rw [Operation.apply, Operation.run, hOk]
    cases hDeclared : (after ops).declareIn k name symbol with
    | none =>
      refine h.refused ?_
      rintro ⟨t, hSome⟩
      rw [hOk, hDeclared] at hSome
      cases hSome
    | some t' => exact h.accepted hStack hDeclared

end Traces

/-- Each operation keeps the invariant, so all of them do. -/
theorem after_traces (ops : List Operation) : Traces ops (after ops) := by
  induction ops using List.reverseRecOn with
  | nil => exact .new
  | append_singleton ops op ih =>
    rw [after_snoc]
    cases op with
    | push => exact ih.push
    | pop => exact ih.pop
    | declare name symbol => exact ih.declare name symbol

/-! ## Lookups -/

/-- A local lookup finds what the history declares in the innermost scope. -/
theorem Traces.lookupLocal_eq (h : Traces ops t) : t.lookupLocal name = some symbol ↔
    ∃ k, (live ops).scopes.head? = some k ∧ Declared ops k name symbol := by
  rw [lookupLocal, h.stack, Option.bind_eq_some_iff]
  exact exists_congr fun k => and_congr Iff.rfl (h.bound k name symbol)

/-- A scope without the name is one where no declaration of it went through. -/
theorem Traces.lookup_eq_none (h : Traces ops t) :
    (t.scope k).lookup name = none ↔ ∀ other, ¬ Declared ops k name other := by
  rw [Option.eq_none_iff_forall_ne_some]
  exact forall_congr' fun other => not_congr (h.bound k name other)

/-- A lookup finds what the history declares in the innermost scope that has the name. -/
theorem Traces.lookup_eq (h : Traces ops t) : t.lookup name = some symbol ↔
    ∃ inner k outer, (live ops).scopes = inner ++ k :: outer ∧
      (∀ j ∈ inner, ∀ other, ¬ Declared ops j name other) ∧ Declared ops k name symbol := by
  rw [lookup, h.stack, List.findSome?_eq_some_iff]
  simp only [h.lookup_eq_none, h.bound]
  exact exists_congr fun inner => exists_congr fun k => exists_congr fun outer =>
    and_congr Iff.rfl And.comm

/-- The innermost scope takes a name that was not declared in it before. -/
theorem Traces.accepts (h : Traces ops (after ops)) : Accepts ops name symbol ↔
    ∃ k, (live ops).scopes.head? = some k ∧ ∀ earlier, ¬ Declared ops k name earlier := by
  simp only [Accepts, ← h.stack, ← h.lookup_eq_none]
  -- without an open scope neither side holds
  cases hStack : (after ops).stack with
  | nil => simp [declare_of_empty hStack]
  | cons k rest =>
    rw [declare_of_stack hStack, List.head?_cons]
    cases hDeclared : (after ops).declareIn k name symbol with
    -- a name that is refused has a binding already
    | none =>
      have hTaken := declareIn_eq_none.mp hDeclared
      simp [Option.isSome_iff_ne_none.mp hTaken]
    | some t' => simp [(declareIn_eq_some hDeclared).1]

/-! ## Operations in a scope of their own -/

theorem Operation.apply_push (t : SymbolTable) : Operation.push.apply t = t.push.2 := rfl

/-- Leaving closes the innermost scope. -/
theorem Operation.apply_pop {rest : List ScopeId} (hStack : t.stack = k :: rest) :
    Operation.pop.apply t = { t with stack := rest } := by
  rw [Operation.apply, Operation.run, pop_of_stack hStack]
  rfl

/-- Declaring changes no other scope than the innermost one. -/
theorem Operation.apply_declare_touches {rest : List ScopeId} (hStack : t.stack = k :: rest) :
    Touches k t ((Operation.declare name symbol).apply t) := by
  rw [Operation.apply, Operation.run, declare_of_stack hStack]
  cases hDeclared : t.declareIn k name symbol with
  | none => exact .refl k t
  | some t' =>
    exact
      { stack := (declareIn_eq_some hDeclared).2.1
        length := Nat.le_of_eq (declareIn_length hDeclared).symm
        other := fun j _ hj => declareIn_scope_other hDeclared hj }

/-- A scope that is opened and left again around operations that touch no other one. -/
theorem frame_of_touches {inside : List Operation}
    (h : Touches t.store.length t.push.2 (inside.foldl Operation.apply t.push.2)) :
    Frame t ((.push :: inside ++ [.pop] : List Operation).foldl Operation.apply t) := by
  have hStack := h.stack
  rw [push_stack] at hStack
  rw [List.foldl_append, List.foldl_cons, List.foldl_nil, List.foldl_cons, Operation.apply_push,
    Operation.apply_pop hStack]
  exact h.leave

/-- Operations that leave what they open touch the innermost scope only. -/
theorem Bracketed.touches {rest : List ScopeId} (h : Bracketed ops) (hStack : t.stack = k :: rest) :
    Touches k t (ops.foldl Operation.apply t) := by
  induction h generalizing t k rest with
  | nil => exact .refl k t
  | declare name symbol => exact Operation.apply_declare_touches hStack
  | append _ _ ih ih' =>
    have hFirst := ih hStack
    rw [List.foldl_append]
    exact hFirst.trans (ih' (hFirst.stack.trans hStack))
  -- inside, the new scope is the innermost one
  | nested _ ih => exact (frame_of_touches (ih (push_stack t))).touches k

/-! ## Histories -/

/-- **Histories.** A table that started as a new one is as the operations since then tell, whatever
they were: how many scopes are open, which operations fail, which declarations go through, and what
each name means. -/
theorem told_by_history (ops : List Operation) : Told ops := by
  have h := after_traces ops
  have hPush : after (ops ++ [.push]) = (after ops).push.2 := after_snoc ops .push
  exact
    { depth := by rw [depth, h.stack]
      pop := fun error => by rw [← h.stack, pop_eq_error]
      declare := fun name symbol error => by rw [← h.stack, declare_eq_error]
      -- a failed operation leaves the table as it was, so those behind it see the same table
      failed := fun op error hFails later => by
        rw [after_append, after_append, List.foldl_cons, Operation.apply, hFails]
      push := by
        rw [hPush]
        exact ⟨by rw [depth, depth, push_stack, List.length_cons], fun name =>
          ⟨lookupLocal_push _ name, lookup_push _ name⟩⟩
      accepts := fun name symbol => h.accepts
      lookupLocal := fun name symbol => h.lookupLocal_eq
      lookup := fun name symbol => h.lookup_eq
      unbound := fun name => by
        rw [SymbolTable.lookup, List.findSome?_eq_none_iff, h.stack]
        exact forall₂_congr fun k _ => h.lookup_eq_none
      bracketed := fun inside hInside => by
        -- what is left of a scope of its own is a frame around it
        have hFrame : Frame (after ops) (after (ops ++ .push :: inside ++ [.pop])) := by
          rw [List.append_assoc, after_append]
          exact frame_of_touches (hInside.touches (push_stack (after ops)))
        have hScopes := hFrame.openScopes_eq_of_made h.made
        refine ⟨by rw [depth, depth, hFrame.stack], fun name => ?_⟩
        rw [lookup_eq_openScopes, lookup_eq_openScopes, lookupLocal_eq_openScopes,
          lookupLocal_eq_openScopes, hScopes]
        exact ⟨rfl, rfl⟩ }

/-- The second leaving fails, and a scope that is opened afterwards is the only one. -/
example : (live [.pop, .pop, .push]).scopes = [1] ∧ (after [.pop, .pop, .push]).depth = 1 := by
  decide

end NameResolution.SymbolTable
