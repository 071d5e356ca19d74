import Mathlib.Data.List.Forall2
import NameResolution.Analysis.Use
import NameResolution.Proofs.Scope.Frame
import NameResolution.Proofs.Tree.Sites

/-!
# Mirrors — the scope stack against the scopes of the tree

During the walk the open scopes bind exactly what the tree declares around the place that the walk
has reached. So a name can be looked up in the tree alone.

* `SymbolTable.Mirrors` — the open scopes bind what the scopes of a place declare.
* `SymbolTable.Proper` — the open scopes are distinct, and nothing in them is undefined.
-/

namespace NameResolution.SymbolTable

variable {base : ScopeId} {t t' t'' : SymbolTable} {scopes : Scopes}

/-! ## The stack and the tree -/

/-- Each scope of the row binds every name to the symbol of its first accepted declaration. -/
def MirrorsOn (t : SymbolTable) (row : List ScopeId) (scopes : Scopes) : Prop :=
  List.Forall₂ (fun k declared => ∀ name, (t.scope k).lookup name = firstAccepted declared name)
    row scopes

/-- The open scopes bind what the scopes of a place declare. -/
def Mirrors (t : SymbolTable) (scopes : Scopes) : Prop :=
  t.MirrorsOn t.stack scopes

/-- Only the scopes of the row matter. -/
theorem MirrorsOn.congr {row : List ScopeId} (h : t.MirrorsOn row scopes)
    (hSame : ∀ k ∈ row, t'.scope k = t.scope k) : t'.MirrorsOn row scopes := by
  induction h with
  | nil => exact .nil
  | @cons k declared row scopes hHead _ ih =>
    refine .cons (fun name => ?_) (ih fun j hj => hSame j (List.mem_cons_of_mem k hj))
    rw [hSame k List.mem_cons_self]
    exact hHead name

/-- Lists whose items answer alike find the same. -/
theorem findSome?_eq_of_forall₂ {α β γ : Type} {f : α → Option γ} {g : β → Option γ}
    {as : List α} {bs : List β} (h : List.Forall₂ (fun a b => f a = g b) as bs) :
    as.findSome? f = bs.findSome? g := by
  induction h with
  | nil => rfl
  | cons hHead _ ih => rw [List.findSome?_cons, List.findSome?_cons, hHead, ih]

/-- A name means in the table what it means in the tree. -/
theorem Mirrors.lookup_eq (h : t.Mirrors scopes) (name : String) :
    t.lookup name = scopes.find name :=
  findSome?_eq_of_forall₂ (h.imp fun _ _ hAgree => hAgree name)

/-! ## What is in the scopes -/

/-- The open scopes are distinct and were made from number `base` on. In all scopes from there on a
symbol stands under the name and the scope of its origin, no symbol is undefined, and the fields of
a struct are in such a scope, too. -/
structure Proper (base : ScopeId) (t : SymbolTable) : Prop where
  length : base ≤ t.store.length
  nodup : t.stack.Nodup
  made : ∀ k ∈ t.stack, base ≤ k ∧ k < t.store.length
  origin : ∀ k name symbol, base ≤ k → (t.scope k).lookup name = some symbol →
    symbol.origin = .declared k name
  defined : ∀ k name symbol, base ≤ k → (t.scope k).lookup name = some symbol →
    symbol.isUndefined = false
  fields : ∀ k name symbol, base ≤ k → (t.scope k).lookup name = some symbol →
    ∀ inside, symbol.meaning.fields? = some inside → base ≤ inside

/-- A table with one empty scope, the only open one. -/
theorem Proper.restart (t : SymbolTable) : Proper t.store.length t.restart where
  length := by simp
  nodup := by simp
  made k hk := by
    rw [restart_stack, List.mem_singleton] at hk
    rw [restart_length, hk]
    exact ⟨Nat.le_refl _, Nat.lt_succ_self _⟩
  -- the one scope behind a restart is new and holds nothing, so nothing can be found in it
  origin k name symbol hk h := by
    rw [restart_scope, scope_of_length_le hk] at h
    cases h
  defined k name symbol hk h := by
    rw [restart_scope, scope_of_length_le hk] at h
    cases h
  fields k name symbol hk h := by
    rw [restart_scope, scope_of_length_le hk] at h
    cases h

/-- A symbol that is found is declared in an open scope. -/
theorem Proper.lookup_mem (hProper : t.Proper base) {name : String} {symbol : Symbol}
    (h : t.lookup name = some symbol) :
    ∃ k ∈ t.stack, base ≤ k ∧ (t.scope k).lookup name = some symbol := by
  obtain ⟨k, hk, hFound⟩ := List.exists_of_findSome?_eq_some h
  exact ⟨k, hk, (hProper.made k hk).1, hFound⟩

/-- The undefined symbol is never found. -/
theorem Proper.lookup_defined (hProper : t.Proper base) {name : String} {symbol : Symbol}
    (h : t.lookup name = some symbol) : symbol.isUndefined = false := by
  obtain ⟨k, -, hBase, hFound⟩ := hProper.lookup_mem h
  exact hProper.defined k name symbol hBase hFound

/-- A frame of a table mirrors the same scopes of the text. -/
theorem Frame.mirrors (hProper : t.Proper base) (hMirrors : t.Mirrors scopes) (h : Frame t t') :
    t'.Mirrors scopes := by
  unfold Mirrors at hMirrors ⊢
  rw [h.stack]
  exact hMirrors.congr fun k hk => h.scope k (hProper.made k hk).2

/-- A new innermost scope binds nothing yet. -/
theorem Mirrors.push (h : t.Mirrors scopes) :
    t.push.2.Mirrors ([] :: scopes) := by
  unfold Mirrors
  rw [push_stack]
  -- nothing is bound under a number that has just been taken
  refine .cons (fun name => ?_) (h.congr fun k _ => push_scope t k)
  rw [push_scope, scope_of_length_le (Nat.le_refl _)]
  rfl

/-- Opening a scope keeps the table in good order. -/
theorem Proper.push (hProper : t.Proper base) : t.push.2.Proper base where
  length := by
    rw [push_length]
    exact Nat.le_succ_of_le hProper.length
  nodup := by
    rw [push_stack, List.nodup_cons]
    -- the new number is not among those that were made before
    refine ⟨fun hMem => ?_, hProper.nodup⟩
    exact Nat.lt_irrefl _ (hProper.made _ hMem).2
  made k hk := by
    rw [push_stack, List.mem_cons] at hk
    rw [push_length]
    rcases hk with rfl | hk
    · exact ⟨hProper.length, Nat.lt_succ_self _⟩
    · exact ⟨(hProper.made k hk).1, Nat.lt_succ_of_lt (hProper.made k hk).2⟩
  origin k name symbol hk h := hProper.origin k name symbol hk (push_scope t k ▸ h)
  defined k name symbol hk h := hProper.defined k name symbol hk (push_scope t k ▸ h)
  fields k name symbol hk h := hProper.fields k name symbol hk (push_scope t k ▸ h)

section Pop

variable {inner : ScopeId} {rest : List ScopeId} (hStack : t.stack = inner :: rest)
include hStack

/-- Without the innermost scope the others are still mirrored. -/
theorem Mirrors.pop (h : t.Mirrors scopes) : Mirrors { t with stack := rest } scopes.tail := by
  unfold Mirrors at h
  rw [hStack] at h
  obtain - | ⟨-, hOuter⟩ := h
  exact hOuter

/-- Closing a scope keeps the table in good order. -/
theorem Proper.pop (hProper : t.Proper base) : Proper base { t with stack := rest } where
  length := hProper.length
  nodup := (List.nodup_cons.mp (hStack ▸ hProper.nodup)).2
  made k hk := hProper.made k (hStack ▸ List.mem_cons_of_mem inner hk)
  origin := hProper.origin
  defined := hProper.defined
  fields := hProper.fields

end Pop

/-- A scope that is not opened changes nothing but the numbers that are taken. -/
theorem Proper.newScope (hProper : t.Proper base) : t.newScope.2.Proper base where
  length := by
    rw [newScope_length]
    exact Nat.le_succ_of_le hProper.length
  nodup := hProper.nodup
  made k hk := by
    rw [newScope_length]
    exact ⟨(hProper.made k hk).1, Nat.lt_succ_of_lt (hProper.made k hk).2⟩
  origin k name symbol hk h := hProper.origin k name symbol hk (newScope_scope t k ▸ h)
  defined k name symbol hk h := hProper.defined k name symbol hk (newScope_scope t k ▸ h)
  fields k name symbol hk h := hProper.fields k name symbol hk (newScope_scope t k ▸ h)

/-- A scope that is not on the stack is not seen. -/
theorem Mirrors.newScope (h : t.Mirrors scopes) : t.newScope.2.Mirrors scopes :=
  MirrorsOn.congr h fun k _ => newScope_scope t k

/-- Leaving the scopes that were opened after `t`. -/
theorem Proper.leave (hInner : t'.Proper base) (hProper : t.Proper base)
    (hLength : t.store.length ≤ t'.store.length) :
    Proper base { t' with stack := t.stack } where
  length := hInner.length
  nodup := hProper.nodup
  made k hk := ⟨(hProper.made k hk).1, Nat.lt_of_lt_of_le (hProper.made k hk).2 hLength⟩
  origin := hInner.origin
  defined := hInner.defined
  fields := hInner.fields

/-- What it takes to find a field: the left side is a variable of a struct that is visible under its
name, and the scope of that struct binds the name of the field. -/
theorem access_eq_found {left symbol : Symbol} {field : String}
    (h : t.access left field = .found symbol) :
    ∃ type struct inside, left.meaning.struct? = some type ∧ t.lookupStruct type = some struct ∧
      struct.meaning.fields? = some inside ∧ (t.scope inside).lookup field = some symbol := by
  -- the access gets past an undefined left side, one of no struct type, and an unknown struct
  unfold access at h
  split at h
  · cases h
  split at h
  · cases h
  split at h
  · cases h
  rename_i struct hStruct
  split at h
  · cases h
  rename_i found hField
  obtain ⟨type, hType, hName⟩ := Option.bind_eq_some_iff.mp hStruct
  obtain ⟨inside, hInside, hFound⟩ := Option.bind_eq_some_iff.mp hField
  cases h
  exact ⟨type, struct, inside, hType, hName, hInside, hFound⟩

/-- A field that is found is declared in the scope of a struct's fields. -/
theorem Proper.access_found (hProper : t.Proper base) {left symbol : Symbol} {field : String}
    (h : t.access left field = .found symbol) :
    ∃ inside, base ≤ inside ∧ (t.scope inside).lookup field = some symbol := by
  obtain ⟨name, struct, inside, -, hName, hInside, hFound⟩ := access_eq_found h
  obtain ⟨hLookup, -⟩ := Option.filter_eq_some_iff.mp hName
  obtain ⟨k, -, hBase, hDeclared⟩ := hProper.lookup_mem hLookup
  exact ⟨inside, hProper.fields k name struct hBase hDeclared inside hInside, hFound⟩

/-- What an access denotes is undefined, or found. -/
theorem access_symbol_cases (t : SymbolTable) (left : Symbol) (field : String) :
    (t.access left field).symbol = .undefined ∨
      t.access left field = .found (t.access left field).symbol := by
  cases t.access left field with
  | found symbol => exact .inr rfl
  | broken | notStruct | hidden | noField => exact .inl rfl

/-- An access says that it is broken only behind an undefined left side. -/
theorem access_broken {left : Symbol} {field : String} (h : t.access left field = .broken) :
    left.isUndefined = true := by
  unfold access at h
  split at h
  · assumption
  split at h
  · cases h
  split at h
  · cases h
  split at h <;> cases h

end NameResolution.SymbolTable
