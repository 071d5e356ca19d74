import NameResolution.Proofs.Analysis.Mirror
import NameResolution.Proofs.Tree.Relabel

/-!
# Shifted tables — the same scopes under other numbers

An analysis takes the numbers of its scopes from the store that the one before has left. So two
analyses of one program do the same in scopes whose numbers differ by a constant, and what they find
differs in these numbers only.

* `Symbol.shift`, `Scope.shift`, `Ident.shift` — with every scope number raised by a constant.
* `SymbolTable.Shifted` — the scopes of one table from a number on are shifted ones of another.
* `Loc.annotate_shift`, `Expr.annotate_shift` — what the uses of names find under two such tables.
-/

namespace NameResolution

/-! ## Shifted symbols -/

variable {n : Nat}

/-- The meaning with the scope of a struct's fields raised by `n`. -/
def Meaning.shift (n : Nat) : Meaning → Meaning
  | structDecl fields => structDecl (fields + n)
  | regular type => regular type
  | formal type => formal type
  | function result params => function result params
  | structVar name => structVar name
  | undefined => undefined
  | bare category => bare category

/-- Only a symbol that was declared in a scope moves. -/
def Origin.shift (n : Nat) : Origin → Origin
  | declared scope name => declared (scope + n) name
  | free number => free number

/-- The symbol with its scope numbers raised by `n`. -/
def Symbol.shift (n : Nat) (s : Symbol) : Symbol :=
  ⟨s.origin.shift n, s.meaning.shift n⟩

/-- The identifier with a shifted symbol. -/
def Ident.shift (n : Nat) (id : Ident) : Ident :=
  { id with symbol? := id.symbol?.map (Symbol.shift n) }

@[simp] theorem Meaning.category_shift (m : Meaning) : (m.shift n).category = m.category := by
  cases m <;> rfl

@[simp] theorem Meaning.struct?_shift (m : Meaning) : (m.shift n).struct? = m.struct? := by
  cases m <;> rfl

@[simp] theorem Meaning.fields?_shift (m : Meaning) :
    (m.shift n).fields? = m.fields?.map (· + n) := by
  cases m <;> rfl

@[simp] theorem Meaning.text_shift (m : Meaning) : (m.shift n).text = m.text := by
  cases m <;> rfl

theorem Meaning.shift_injective (n : Nat) : Function.Injective (Meaning.shift n) := by
  intro m m' h
  cases m <;> cases m' <;> simp_all [Meaning.shift]

/-- Different origins stay different. -/
theorem Origin.shift_injective (n : Nat) : Function.Injective (Origin.shift n) := by
  intro o o' h
  cases o <;> cases o' <;> simp_all [Origin.shift]

@[simp] theorem Symbol.shift_zero (s : Symbol) : s.shift 0 = s := by
  obtain ⟨origin, meaning⟩ := s
  cases origin <;> cases meaning <;> rfl

/-- Symbols that differ still differ when they are shifted. -/
theorem Symbol.shift_injective (n : Nat) : Function.Injective (Symbol.shift n) := by
  rintro ⟨origin, meaning⟩ ⟨origin', meaning'⟩ h
  obtain ⟨hOrigin, hMeaning⟩ := Symbol.mk.inj h
  obtain rfl : origin = origin' := Origin.shift_injective n hOrigin
  obtain rfl : meaning = meaning' := Meaning.shift_injective n hMeaning
  rfl

@[simp] theorem Symbol.shift_undefined : Symbol.undefined.shift n = .undefined := rfl

@[simp] theorem Symbol.category_shift (s : Symbol) : (s.shift n).category = s.category :=
  s.meaning.category_shift

@[simp] theorem Symbol.text_shift (s : Symbol) : (s.shift n).text = s.text :=
  s.meaning.text_shift

@[simp] theorem Symbol.isUndefined_shift (s : Symbol) :
    (s.shift n).isUndefined = s.isUndefined := by
  rw [isUndefined, isUndefined, category_shift]

@[simp] theorem Symbol.isStructVar_shift (s : Symbol) :
    (s.shift n).isStructVar = s.isStructVar := by
  rw [isStructVar, isStructVar, category_shift]

@[simp] theorem Symbol.isStructDecl_shift (s : Symbol) :
    (s.shift n).isStructDecl = s.isStructDecl := by
  rw [isStructDecl, isStructDecl, category_shift]

@[simp] theorem Symbol.isFormal_shift (s : Symbol) : (s.shift n).isFormal = s.isFormal := by
  rw [isFormal, isFormal, category_shift]

/-! ## Shifted scopes -/

/-- The scope with all of its symbols shifted. -/
def Scope.shift (n : Nat) (s : Scope) : Scope :=
  ⟨s.bindings.map fun binding => (binding.1, binding.2.shift n)⟩

/-- What a shifted scope finds is the shifted symbol. -/
theorem Scope.lookup_shift (s : Scope) (name : String) :
    (s.shift n).lookup name = (s.lookup name).map (Symbol.shift n) := by
  obtain ⟨bindings⟩ := s
  unfold shift lookup
  induction bindings with
  | nil => rfl
  | cons binding bindings ih =>
    rw [List.map_cons, List.lookup_cons, List.lookup_cons]
    cases name == binding.1 with
    | true => rfl
    | false => exact ih

@[simp] theorem Scope.shift_zero (s : Scope) : s.shift 0 = s := by
  simp [shift]

/-- Shifting commutes with binding. -/
theorem Scope.bind_shift (s : Scope) (name : String) (symbol : Symbol) :
    (s.bind name symbol).shift n = (s.shift n).bind name (symbol.shift n) := by
  rw [bind, shift, List.map_append]
  rfl

@[simp] theorem Scope.text_shift (s : Scope) : (s.shift n).text = s.text := by
  rw [text, text, shift, List.map_map]
  congr 3
  exact List.map_congr_left fun binding _ => by simp

/-! ## Shifted tables -/

namespace SymbolTable

/-- The scopes of `t` are those that `u` has from number `g` on, with `n` added to their numbers;
these include all open scopes of `u`, of which there is one, and the fields of its structs. -/
structure Shifted (n : Nat) (g : ScopeId) (t u : SymbolTable) : Prop where
  stack : t.stack = u.stack.map (· + n)
  -- the table on the left has made all scopes of the one on the right, and some before them
  length : t.store.length = u.store.length + n
  scope : ∀ k, g ≤ k → t.scope (k + n) = (u.scope k).shift n
  -- what is open on the right belongs to the run, and so do the field tables found there
  opened : u.stack ≠ []
  made : ∀ k ∈ u.stack, g ≤ k ∧ k < u.store.length
  fields : ∀ k name symbol, g ≤ k → (u.scope k).lookup name = some symbol →
    ∀ inside, symbol.meaning.fields? = some inside → g ≤ inside

variable {g k : ScopeId} {t t' u u' : SymbolTable} {name : String} {symbol : Symbol}

namespace Shifted

/-! ### Reading -/

/-- A scope of the run finds the shifted symbol. -/
theorem scope_lookup (h : Shifted n g t u) (hk : g ≤ k) (name : String) :
    (t.scope (k + n)).lookup name = ((u.scope k).lookup name).map (Symbol.shift n) := by
  rw [h.scope k hk, Scope.lookup_shift]

/-- A lookup from the innermost scope outwards finds the shifted symbol. -/
theorem lookup_eq (h : Shifted n g t u) (name : String) :
    t.lookup name = (u.lookup name).map (Symbol.shift n) := by
  rw [lookup, lookup, h.stack, List.findSome?_map, List.map_findSome?]
  exact findSome?_eq_of_forall₂ (List.forall₂_same.mpr fun k hk =>
    h.scope_lookup (h.made k hk).1 name)

/-- A lookup in the innermost scope finds the shifted symbol. -/
theorem lookupLocal_eq (h : Shifted n g t u) (name : String) :
    t.lookupLocal name = (u.lookupLocal name).map (Symbol.shift n) := by
  rw [lookupLocal, lookupLocal, h.stack]
  cases hStack : u.stack with
  | nil => rfl
  | cons k rest =>
    exact h.scope_lookup (h.made k (hStack ▸ List.mem_cons_self)).1 name

/-- The struct of a name is the shifted one. -/
theorem lookupStruct_eq (h : Shifted n g t u) (name : String) :
    t.lookupStruct name = (u.lookupStruct name).map (Symbol.shift n) := by
  rw [lookupStruct, lookupStruct, h.lookup_eq, Option.filter_map]
  congr 2
  funext symbol
  exact symbol.isStructDecl_shift

/-- A name denotes the shifted symbol. -/
theorem denote_eq (h : Shifted n g t u) (name : String) :
    t.denote name = (u.denote name).shift n := by
  rw [denote, denote, h.lookup_eq]
  cases u.lookup name <;> rfl

/-- As many scopes are open in both. -/
theorem depth_eq (h : Shifted n g t u) : t.depth = u.depth := by
  rw [depth, depth, h.stack, List.length_map]

/-- What is shown of a table does not depend on scope numbers. -/
theorem text_eq (h : Shifted n g t u) : t.text = u.text := by
  have hLines : t.scopeLines = u.scopeLines := by
    rw [scopeLines, scopeLines, h.stack, ← List.map_reverse, List.zipIdx_map, List.map_map]
    refine List.map_congr_left fun ⟨k, level⟩ hMem => ?_
    have hk : k ∈ u.stack := List.mem_reverse.mp (List.fst_mem_of_mem_zipIdx hMem)
    simp [h.scope k (h.made k hk).1]
  rw [text, text, hLines]

/-- The next number is one of those that are shifted. -/
theorem base_le (h : Shifted n g t u) : g ≤ u.store.length := by
  obtain ⟨k, rest, hStack⟩ := List.exists_cons_of_ne_nil h.opened
  obtain ⟨hBase, hMade⟩ := h.made k (hStack ▸ List.mem_cons_self)
  exact Nat.le_of_lt (Nat.lt_of_le_of_lt hBase hMade)

/-! ### Changing -/

/-- Tables that start over are shifted by the scopes that one of them has made before. -/
theorem restart (hLength : t.store.length = u.store.length + n) :
    Shifted n u.store.length t.restart u.restart where
  stack := by rw [restart_stack, restart_stack, hLength, List.map_singleton]
  length := by rw [restart_length, restart_length, hLength, Nat.add_right_comm]
  scope k hk := by
    -- both are numbers of scopes that bind nothing yet
    rw [restart_scope, restart_scope, scope_of_length_le hk,
      scope_of_length_le (hLength ▸ Nat.add_le_add_right hk n)]
    rfl
  opened := List.cons_ne_nil _ _
  made k hk := by
    rw [restart_stack, List.mem_singleton] at hk
    rw [restart_length, hk]
    exact ⟨Nat.le_refl _, Nat.lt_succ_self _⟩
  fields k name symbol hk hFound := by
    rw [restart_scope, scope_of_length_le hk] at hFound
    cases hFound

theorem newScope (h : Shifted n g t u) : Shifted n g t.newScope.2 u.newScope.2 where
  stack := h.stack
  length := by rw [newScope_length, newScope_length, h.length, Nat.add_right_comm]
  scope k hk := by
    rw [newScope_scope, newScope_scope]
    exact h.scope k hk
  opened := h.opened
  made k hk := by
    rw [newScope_length]
    exact (h.made k hk).imp_right Nat.lt_succ_of_lt
  fields k name symbol hk hFound :=
    h.fields k name symbol hk (newScope_scope u k ▸ hFound)

/-- The same scopes are closed or opened in both. -/
theorem with_stack (h : Shifted n g t u) {stack stack' : List ScopeId}
    (hStack : stack = stack'.map (· + n)) (hOpened : stack' ≠ [])
    (hMade : ∀ k ∈ stack', g ≤ k ∧ k < u.store.length) :
    Shifted n g { t with stack := stack } { u with stack := stack' } where
  stack := hStack
  length := h.length
  scope := h.scope
  opened := hOpened
  made := hMade
  fields := h.fields

theorem push (h : Shifted n g t u) : Shifted n g t.push.2 u.push.2 := by
  refine h.newScope.with_stack ?_ (List.cons_ne_nil _ _) fun k hk => ?_
  · show t.store.length :: t.stack = (u.store.length :: u.stack).map (· + n)
    rw [List.map_cons, h.stack, h.length]
  · rw [newScope_length]
    rcases List.mem_cons.mp hk with rfl | hk
    · exact ⟨h.base_le, Nat.lt_succ_self _⟩
    · exact (h.made k hk).imp_right Nat.lt_succ_of_lt

/-- What is refused in one is refused in the other, whatever the symbol. -/
theorem declareIn_none (h : Shifted n g t u) (hk : g ≤ k)
    (hTaken : u.declareIn k name symbol = none) (symbol' : Symbol) :
    t.declareIn (k + n) name symbol' = none := by
  rw [declareIn_eq_none] at hTaken ⊢
  rwa [h.scope_lookup hk, Option.isSome_map]

/-- What is accepted in one is accepted in the other, as the shifted symbol. -/
theorem declareIn_some (h : Shifted n g t u) (hk : g ≤ k)
    (hFields : ∀ inside, symbol.meaning.fields? = some inside → g ≤ inside)
    (hBound : u.declareIn k name symbol = some u') :
    ∃ t', t.declareIn (k + n) name (symbol.shift n) = some t' ∧ Shifted n g t' u' := by
  -- the name is free in the one scope, so it is free in the other
  have hFree : ¬ ((t.scope (k + n)).lookup name).isSome := by
    rw [h.scope_lookup hk, (declareIn_eq_some hBound).1]
    exact Bool.false_ne_true
  obtain ⟨t', hBound'⟩ := Option.ne_none_iff_exists'.mp
    (mt declareIn_eq_none.mp hFree : t.declareIn (k + n) name (symbol.shift n) ≠ none)
  refine ⟨t', hBound', ?_⟩
  -- where there is no scope of the number, nothing is bound in either table
  by_cases hMade : k < u.store.length
  case neg =>
    have hLength := Nat.le_of_not_lt hMade
    rw [declareIn_eq_self hLength hBound,
      declareIn_eq_self (h.length ▸ Nat.add_le_add_right hLength n) hBound']
    exact h
  have hMade' : k + n < t.store.length := h.length ▸ Nat.add_lt_add_right hMade n
  have hStack := (declareIn_eq_some hBound).2.1
  exact
    { stack := by rw [(declareIn_eq_some hBound').2.1, hStack, h.stack]
      length := by rw [declareIn_length hBound', declareIn_length hBound, h.length]
      scope := fun j hj => by
        by_cases hjk : j = k
        · subst hjk
          rw [declareIn_scope_self hMade' hBound', declareIn_scope_self hMade hBound,
            Scope.bind_shift, h.scope j hj]
        · rw [declareIn_scope_other hBound' (mt Nat.add_right_cancel hjk),
            declareIn_scope_other hBound hjk, h.scope j hj]
      opened := hStack ▸ h.opened
      made := fun j hj => by
        rw [declareIn_length hBound]
        exact h.made j (hStack ▸ hj)
      fields := fun j other found hj hFound => by
        rcases (lookup_declareIn hMade hBound).mp hFound with hOld | ⟨-, -, rfl⟩
        · exact h.fields j other found hj hOld
        · exact hFields }

end Shifted

end SymbolTable

/-! ## Uses under shifted tables -/

/-- The access with a shifted symbol. -/
def Access.shift (n : Nat) : Access → Access
  | found symbol => found (symbol.shift n)
  | broken => broken
  | notStruct => notStruct
  | hidden => hidden
  | noField => noField

@[simp] theorem Access.symbol_shift (a : Access) : (a.shift n).symbol = a.symbol.shift n := by
  cases a <;> rfl

/-- What is said about an access depends on where its names stand. -/
theorem Access.diagnose_shift (a : Access) {left left' : Loc} {id id' : Ident}
    (hLeft : left'.last.pos = left.last.pos) (hPos : id'.pos = id.pos) :
    (a.shift n).diagnose left' id' = a.diagnose left id := by
  cases a <;> simp [shift, diagnose, hLeft, hPos]

section

open SymbolTable

variable {g : ScopeId} {t u : SymbolTable}

/-- A field is found in both or in neither. -/
theorem SymbolTable.Shifted.access_eq (h : Shifted n g t u) (left : Symbol) (field : String) :
    t.access (left.shift n) field = (u.access left field).shift n := by
  rw [access, access, Symbol.isUndefined_shift, Symbol.isStructVar_shift]
  split
  · rfl
  split
  · rfl
  have hStruct : (left.shift n).meaning.struct?.bind t.lookupStruct =
      (left.meaning.struct?.bind u.lookupStruct).map (Symbol.shift n) := by
    rw [Symbol.shift, Meaning.struct?_shift]
    cases left.meaning.struct? with
    | none => rfl
    | some type => exact h.lookupStruct_eq type
  rw [hStruct]
  cases hFound : left.meaning.struct?.bind u.lookupStruct with
  | none => rfl
  | some struct =>
    -- the struct is bound in an open scope, so its fields are in a scope of the shifted ones
    obtain ⟨type, -, hVisible⟩ := Option.bind_eq_some_iff.mp hFound
    obtain ⟨k, hk, hBound⟩ := List.exists_of_findSome?_eq_some
      (Option.filter_eq_some_iff.mp hVisible).1
    have hBase := h.fields k type struct (h.made k hk).1 hBound
    have hField : ((struct.shift n).meaning.fields?.bind fun fields =>
        (t.scope fields).lookup field) =
        (struct.meaning.fields?.bind fun fields => (u.scope fields).lookup field).map
          (Symbol.shift n) := by
      rw [Symbol.shift, Meaning.fields?_shift]
      cases hInside : struct.meaning.fields? with
      | none => rfl
      | some inside => exact h.scope_lookup (hBase inside hInside) field
    simp only [Option.map_some, hField]
    cases struct.meaning.fields?.bind fun fields => (u.scope fields).lookup field <;> rfl

/-- A name gets the shifted symbol, whatever it carried before. -/
theorem Ident.annotate_shift (h : Shifted n g t u) (id : Ident) :
    id.annotate t = (id.bare.annotate u).shift n := by
  rw [Ident.annotate, h.denote_eq]
  rfl

/-- A name has the same errors. -/
theorem Ident.diagnose_shift (h : Shifted n g t u) (id : Ident) :
    id.diagnose t = id.bare.diagnose u := by
  have hName : id.bare.name = id.name := rfl
  rw [Ident.diagnose, Ident.diagnose, h.lookup_eq, hName]
  cases u.lookup id.name <;> rfl

theorem Loc.denote_shift (h : Shifted n g t u) (l : Loc) :
    l.denote t = ((l.relabel Ident.bare).denote u).shift n := by
  induction l with
  | var id => exact h.denote_eq id.name
  | field left id ih =>
    rw [Loc.denote, ih, h.access_eq, Access.symbol_shift]
    rfl

/-- A location gets the shifted symbols, whatever it carried before. -/
theorem Loc.annotate_shift (h : Shifted n g t u) (l : Loc) :
    l.annotate t = ((l.relabel Ident.bare).annotate u).relabel (Ident.shift n) := by
  induction l with
  | var id => exact congrArg Loc.var (id.annotate_shift h)
  | field left id ih =>
    rw [Loc.annotate, ih, Loc.denote_shift h]
    rfl

theorem Loc.diagnose_shift (h : Shifted n g t u) (l : Loc) :
    l.diagnose t = (l.relabel Ident.bare).diagnose u := by
  induction l with
  | var id => exact id.diagnose_shift h
  | field left id ih =>
    have hLast : left.last.pos = (left.relabel Ident.bare).last.pos := by cases left <;> rfl
    rw [Loc.diagnose, ih, Loc.denote_shift h, h.access_eq, Access.diagnose_shift _ hLast rfl]
    rfl

mutual

/-- An expression gets the shifted symbols, whatever it carried before. -/
theorem Expr.annotate_shift (h : Shifted n g t u) :
    (e : Expr) → e.annotate t = ((e.relabel id Ident.bare).annotate u).relabel id (Ident.shift n)
  -- literals carry no symbols
  | .trueLit _ | .falseLit _ | .intLit _ _ | .strLit _ _ => rfl
  | .loc location => by
    rw [Expr.annotate, Loc.annotate_shift h]
    rfl
  | .assign target value => by
    rw [Expr.annotate, Loc.annotate_shift h, Expr.annotate_shift h value]
    rfl
  | .call callee args => by
    rw [Expr.annotate, Ident.annotate_shift h, Expr.annotateAll_shift h args]
    rfl
  | .unary op operand => by
    rw [Expr.annotate, Expr.annotate_shift h operand]
    rfl
  | .binary op left right => by
    rw [Expr.annotate, Expr.annotate_shift h left, Expr.annotate_shift h right]
    rfl

theorem Expr.annotateAll_shift (h : Shifted n g t u) :
    (es : List Expr) → Expr.annotateAll t es =
      Expr.relabelAll id (Ident.shift n) (Expr.annotateAll u (Expr.relabelAll id Ident.bare es))
  | [] => rfl
  | e :: es => by
    rw [Expr.annotateAll, Expr.annotate_shift h e, Expr.annotateAll_shift h es]
    rfl

end

mutual

theorem Expr.diagnose_shift (h : Shifted n g t u) :
    (e : Expr) → e.diagnose t = (e.relabel id Ident.bare).diagnose u
  | .trueLit _ | .falseLit _ | .intLit _ _ | .strLit _ _ => rfl
  | .loc location => Loc.diagnose_shift h location
  | .assign target value => by
    rw [Expr.diagnose, Loc.diagnose_shift h, Expr.diagnose_shift h value]
    rfl
  | .call callee args => by
    rw [Expr.diagnose, Ident.diagnose_shift h, Expr.diagnoseAll_shift h args]
    rfl
  | .unary op operand => Expr.diagnose_shift h operand
  | .binary op left right => by
    rw [Expr.diagnose, Expr.diagnose_shift h left, Expr.diagnose_shift h right]
    rfl

theorem Expr.diagnoseAll_shift (h : Shifted n g t u) :
    (es : List Expr) →
      Expr.diagnoseAll t es = Expr.diagnoseAll u (Expr.relabelAll id Ident.bare es)
  | [] => rfl
  | e :: es => by
    rw [Expr.diagnoseAll, Expr.diagnose_shift h e, Expr.diagnoseAll_shift h es]
    rfl

end

end

end NameResolution
