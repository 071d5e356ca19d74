import Mathlib.Data.List.Nodup
import NameResolution.Proofs.Analysis.Uses
import NameResolution.Proofs.Analysis.Verdicts

/-!
# Chains — where and how a field access breaks

A chain of field accesses is followed from its root. Up to the first link that fails each name
stands for a symbol, and from there on all names are undefined. What is reported is the first
failure alone, and it can be read off the declarations in front of the chain: the root is not
visible, what stands left of a colon is no struct variable, its struct is hidden by a formal or a
local variable, or the struct has no field of the name.

* `Journal.Linked` — a chain, or the front of one, of which every name is found.
* `Journal.Chain` — the names of a whole chain with its errors.
* `chains_break_at_first_failure` — every use of a program.
-/

namespace NameResolution

open Analysis SymbolTable Journal

/-! ## Links -/

/-- The scope of the fields in the declaration of a struct. -/
def Act.inside? : Act → Option Nat
  | bind _ (.struct _ inside) => some inside
  | bind _ (.var _) | bind _ (.formal _) | bind _ (.func _ _ _) | use _ => none

namespace Journal

/-- The scope of the fields of the struct that has the name in the global scope. -/
def fieldsOf (journal : List Entry) (name : String) : Option Nat :=
  (binding journal 0 name).bind fun e => e.act.inside?

/-- A function or a block around declares the name, as that of a formal or of a variable. -/
def Hidden (journal : List Entry) (around : List Nat) (name : String) : Prop :=
  ∃ k ∈ around, k ≠ 0 ∧ ∃ symbol, bound journal k name = some symbol

/-- What a colon behind a symbol comes to, with a name on its right: it is followed if the symbol is
that of a variable of a struct, nothing hides the struct, and the struct has a good field of the
name. -/
inductive Link (earlier : List Entry) (around : List Nat) (left : Symbol) (name : String) :
    -- the first condition that fails decides, so the later cases repeat that it held
    Access → Prop where
  | notStruct (hKind : left.isStructVar = false) : Link earlier around left name .notStruct
  | hidden {type : String} (hType : left.meaning = .structVar type)
    (hHidden : Hidden earlier around type) : Link earlier around left name .hidden
  | noField {type : String} {inside : Nat} (hType : left.meaning = .structVar type)
    (hSeen : ¬ Hidden earlier around type) (hStruct : fieldsOf earlier type = some inside)
    (hField : bound earlier inside name = none) : Link earlier around left name .noField
  | found {type : String} {inside : Nat} {symbol : Symbol} (hType : left.meaning = .structVar type)
    (hSeen : ¬ Hidden earlier around type) (hStruct : fieldsOf earlier type = some inside)
    (hField : bound earlier inside name = some symbol) :
    Link earlier around left name (.found symbol)

/-- Names that are all found and stand for what they are found to be: the root in the scopes around,
each other name behind the one on its left. -/
inductive Linked (earlier : List Entry) (around : List Nat) : List Ident → Prop where
  | root {id : Ident} {symbol : Symbol} (hVisible : visible earlier around id.name = some symbol)
    (hSymbol : id.symbol? = some symbol) (hDefined : symbol.isUndefined = false) :
    Linked earlier around [id]
  | field {front : List Ident} {left id : Ident} {symbol symbol' : Symbol}
    (hFront : Linked earlier around (front ++ [left])) (hLeft : left.symbol? = some symbol)
    (hLink : Link earlier around symbol id.name (.found symbol'))
    (hSymbol : id.symbol? = some symbol') (hDefined : symbol'.isUndefined = false) :
    Linked earlier around (front ++ [left, id])

/-- What is reported of a colon between two names. -/
def reportAt (left id : Ident) : Access → List Diagnostic
  | .found _ | .broken => []
  | .notStruct => [.located .nonStructAccess left.pos]
  | .hidden => [.located .invalidStructType left.pos]
  | .noField => [.located .invalidField id.pos]

/-- The names of a chain with its errors: all names are found, or some in front, and the failure
behind them is the one error. -/
inductive Chain (earlier : List Entry) (around : List Nat) :
    List Ident → List Diagnostic → Prop where
  | whole {ids : List Ident} (h : Linked earlier around ids) : Chain earlier around ids []
  | undeclared {root : Ident} {rest : List Ident}
    (hVisible : visible earlier around root.name = none)
    (hRest : ∀ id ∈ root :: rest, id.symbol? = some .undefined) :
    Chain earlier around (root :: rest) [.located .undeclared root.pos]
  | broken {front : List Ident} {left id : Ident} {rest : List Ident} {symbol : Symbol}
    {access : Access} (hFront : Linked earlier around (front ++ [left]))
    (hLeft : left.symbol? = some symbol) (hLink : Link earlier around symbol id.name access)
    (hFails : ∀ found, access ≠ .found found)
    (hRest : ∀ x ∈ id :: rest, x.symbol? = some .undefined) :
    Chain earlier around (front ++ left :: id :: rest) (reportAt left id access)

variable {g : ScopeId} {earlier : List Entry} {around : List Nat} {c : Cursor} {t : SymbolTable}
  {tables : List ScopeId} {symbol struct : Symbol} {type name : String} {ids : List Ident}
  {id : Ident} {errors errors' : List Diagnostic}

/-- Behind a failure all is undefined, and nothing more is reported. -/
theorem Chain.snoc (h : Chain earlier around ids errors) (hErrors : errors ≠ [])
    (hId : id.symbol? = some .undefined) : Chain earlier around (ids ++ [id]) errors := by
  have hMore {rest : List Ident} (hRest : ∀ x ∈ rest, x.symbol? = some .undefined) :
      ∀ x ∈ rest ++ [id], x.symbol? = some .undefined :=
    List.forall_mem_append.mpr ⟨hRest, List.forall_mem_singleton.mpr hId⟩
  -- what is undefined already goes on being so
  cases h with
  | whole => exact absurd rfl hErrors
  | undeclared hVisible hRest => exact .undeclared hVisible (hMore hRest)
  | broken hFront hLeft hLink hFails hRest =>
    rw [List.append_assoc]
    exact .broken hFront hLeft hLink hFails (hMore hRest)

/-! ### The outcome is determined -/

/-- Behind a variable of a struct, the scopes around and the fields decide. -/
theorem Link.eq_of_structVar {access : Access} (h : Link earlier around symbol name access)
    (hType : symbol.meaning = .structVar type) :
    Hidden earlier around type ∧ access = .hidden ∨
      ¬ Hidden earlier around type ∧ ∃ inside, fieldsOf earlier type = some inside ∧
        access = (bound earlier inside name).elim .noField .found := by
  -- the meaning fixes the name of the struct
  have hSame {type' : String} (hType' : symbol.meaning = .structVar type') : type' = type :=
    Meaning.structVar.inj (hType'.symm.trans hType)
  cases h with
  | notStruct hKind =>
    rw [Symbol.isStructVar_of_meaning hType] at hKind
    cases hKind
  | hidden hType' hHidden => exact .inl ⟨hSame hType' ▸ hHidden, rfl⟩
  | noField hType' hSeen hStruct hField | found hType' hSeen hStruct hField =>
    obtain rfl := hSame hType'
    exact .inr ⟨hSeen, _, hStruct, by rw [hField]; rfl⟩

/-- The conditions of the cases exclude each other. -/
theorem Link.unique {access access' : Access} (h : Link earlier around symbol name access)
    (h' : Link earlier around symbol name access') : access = access' := by
  cases h with
  | notStruct hKind =>
    -- behind a struct variable the first case is out of question
    cases h' with
    | notStruct => rfl
    | hidden hType | noField hType | found hType =>
      rw [Symbol.isStructVar_of_meaning hType] at hKind
      cases hKind
  | hidden hType hHidden =>
    rcases h'.eq_of_structVar hType with ⟨-, rfl⟩ | ⟨hSeen, -⟩
    · rfl
    · exact absurd hHidden hSeen
  | noField hType hSeen hStruct hField | found hType hSeen hStruct hField =>
    rcases h'.eq_of_structVar hType with ⟨hHidden, -⟩ | ⟨-, inside, hStruct', rfl⟩
    · exact absurd hHidden hSeen
    · obtain rfl := Option.some.inj (hStruct.symm.trans hStruct')
      rw [hField]
      rfl

/-- Names that are found stand for something. -/
theorem Linked.defined (h : Linked earlier around ids) :
    ∀ x ∈ ids, x.symbol? ≠ some .undefined := by
  have hName {x : Ident} {symbol : Symbol} (hSymbol : x.symbol? = some symbol)
      (hDefined : symbol.isUndefined = false) : x.symbol? ≠ some .undefined := by
    rw [hSymbol]
    exact fun hUndefined => Symbol.ne_undefined hDefined (Option.some.inj hUndefined)
  induction h with
  | root _ hSymbol hDefined => exact List.forall_mem_singleton.mpr (hName hSymbol hDefined)
  | field _ _ _ hSymbol hDefined ih =>
    rw [List.append_cons]
    exact List.forall_mem_append.mpr ⟨ih, List.forall_mem_singleton.mpr (hName hSymbol hDefined)⟩

/-- Two ways to cut a list in front of the first member without a property are one. -/
theorem cut_unique {α : Type} {P : α → Prop} {front front' rest rest' : List α} {x x' : α}
    (h : front ++ x :: rest = front' ++ x' :: rest') (hFront : ∀ y ∈ front, P y) (hx : ¬ P x)
    (hFront' : ∀ y ∈ front', P y) (hx' : ¬ P x') : front = front' ∧ x = x' := by
  -- induction on the first list; the cuts cannot be at different places
  induction front generalizing front' with
  | nil =>
    cases front' with
    | nil => exact ⟨rfl, (List.cons.inj h).1⟩
    | cons y front' =>
      exact absurd ((List.cons.inj h).1 ▸ hFront' y List.mem_cons_self) hx
  | cons y front ih =>
    cases front' with
    | nil => exact absurd ((List.cons.inj h).1 ▸ hFront y List.mem_cons_self) hx'
    | cons y' front' =>
      obtain ⟨rfl, hTail⟩ := List.cons.inj h
      obtain ⟨rfl, rfl⟩ := ih hTail (fun z hz => hFront z (List.mem_cons_of_mem y hz))
        fun z hz => hFront' z (List.mem_cons_of_mem y hz)
      exact ⟨rfl, rfl⟩

/-- The error of a chain is that of the first name that is undefined: there is none, it is the root,
or there is a link in front of it. -/
theorem Chain.exists_cut (h : Chain earlier around ids errors) :
    (∀ x ∈ ids, x.symbol? ≠ some .undefined) ∧ errors = [] ∨
      ∃ good bad rest, ids = good ++ bad :: rest ∧ (∀ x ∈ good, x.symbol? ≠ some .undefined) ∧
        bad.symbol? = some .undefined ∧ (good = [] ∧ errors = [.located .undeclared bad.pos] ∨
          ∃ front left symbol access, good = front ++ [left] ∧ left.symbol? = some symbol ∧
            Link earlier around symbol bad.name access ∧ errors = reportAt left bad access) := by
  cases h with
  -- only a broken chain has an undefined name in it, and from there on all of them are
  | whole hLinked => exact .inl ⟨hLinked.defined, rfl⟩
  | @undeclared root rest _ hRest =>
    exact .inr ⟨[], root, rest, rfl, List.forall_mem_nil _, hRest root List.mem_cons_self,
      .inl ⟨rfl, rfl⟩⟩
  | @broken front left id rest symbol access hFront hLeft hLink _ hRest =>
    exact .inr ⟨front ++ [left], id, rest, List.append_cons .., hFront.defined,
      hRest id List.mem_cons_self, .inr ⟨front, left, symbol, access, rfl, hLeft, hLink, rfl⟩⟩

/-- The names of a chain determine its errors. -/
theorem Chain.unique (h : Chain earlier around ids errors) (h' : Chain earlier around ids errors') :
    errors = errors' := by
  rcases h.exists_cut with ⟨hAll, rfl⟩ | ⟨good, bad, rest, rfl, hGood, hBad, hError⟩
  · rcases h'.exists_cut with ⟨-, rfl⟩ | ⟨good', bad', rest', rfl, -, hBad', -⟩
    · rfl
    · exact absurd hBad' (hAll bad' (by simp))
  · rcases h'.exists_cut with ⟨hAll, rfl⟩ | ⟨good', bad', rest', hCut, hGood', hBad', hError'⟩
    · exact absurd hBad (hAll bad (by simp))
    · -- both cuts are in front of the first name that is undefined
      obtain ⟨rfl, rfl⟩ := cut_unique hCut hGood (not_not_intro hBad) hGood' (not_not_intro hBad')
      rcases hError with ⟨rfl, rfl⟩ | ⟨front, left, symbol, access, rfl, hLeft, hLink, rfl⟩
      · rcases hError' with ⟨-, rfl⟩ | ⟨front', left', -, -, hEmpty, -⟩
        · rfl
        · exact absurd hEmpty.symm (List.append_ne_nil_of_right_ne_nil _ (List.cons_ne_nil _ _))
      · rcases hError' with ⟨hEmpty, -⟩ | ⟨front', left', _, _, hEq, hLeft', hLink', rfl⟩
        · exact absurd hEmpty (List.append_ne_nil_of_right_ne_nil _ (List.cons_ne_nil _ _))
        · obtain ⟨-, hLast⟩ := List.append_inj' hEq rfl
          obtain rfl := List.singleton_inj.mp hLast
          obtain rfl := Option.some.inj (hLeft.symm.trans hLeft')
          rw [hLink.unique hLink']

/-! ## Structs in the table of a journal -/

namespace Describes

variable (h : Describes g earlier c t) (hKinds : t.Kinds g tables)
include h hKinds

/-- The global scope is the outermost one, and none of the others. -/
theorem around_eq : ∃ inner, c.around = inner ++ [0] ∧ 0 ∉ inner := by
  have hGlobal := hKinds.global
  rw [OpenAt, ← List.head?_eq_getElem?, List.head?_reverse, h.stack, List.getLast?_map,
    Option.map_eq_some_iff] at hGlobal
  obtain ⟨k, hLast, hk⟩ := hGlobal
  obtain rfl := Nat.add_eq_left.mp hk
  obtain ⟨inner, hAround⟩ := List.getLast?_eq_some_iff.mp hLast
  -- the open scopes are distinct, so the global one is not open twice
  have hNodup : c.around.Nodup := List.Nodup.of_map _ (h.stack ▸ hKinds.sound.nodup)
  rw [hAround] at hNodup
  exact ⟨inner, hAround, fun hMem =>
    (List.nodup_append.mp hNodup).2.2 0 hMem 0 List.mem_cons_self rfl⟩

/-- What a name means, first in the scopes of functions and blocks and then in the global one. -/
theorem lookup_eq_or : ∃ inner, c.around = inner ++ [0] ∧ 0 ∉ inner ∧ ∀ name,
    t.lookup name = (visible earlier inner name).or (bound earlier 0 name) := by
  obtain ⟨inner, hAround, hZero⟩ := h.around_eq hKinds
  refine ⟨inner, hAround, hZero, fun name => ?_⟩
  rw [h.lookup_eq_visible, hAround, visible, List.findSome?_append, List.findSome?_singleton]
  rfl

/-- A hidden struct is not found: what is found is no struct. -/
theorem lookupStruct_of_hidden (hHidden : Hidden earlier c.around type) :
    t.lookupStruct type = none := by
  obtain ⟨inner, hAround, hZero, hLookup⟩ := h.lookup_eq_or hKinds
  obtain ⟨k, hk, hNonzero, symbol, hBound⟩ := hHidden
  have hInner : k ∈ inner := by
    rw [hAround, List.mem_append, List.mem_singleton] at hk
    exact hk.resolve_right hNonzero
  cases hStruct : t.lookupStruct type with
  | none => rfl
  | some struct =>
    -- structs are declared in the global scope alone
    obtain ⟨hFound, hKind⟩ := Option.filter_eq_some_iff.mp hStruct
    have hSome : (visible earlier inner type).isSome = true :=
      List.findSome?_isSome_iff.mpr ⟨k, hInner, by rw [hBound]; rfl⟩
    rw [hLookup, Option.or_of_isSome hSome] at hFound
    obtain ⟨j, hj, hFound⟩ := List.exists_of_findSome?_eq_some hFound
    rw [← h.lookup] at hFound
    have hOpen : g + j ∈ t.stack := by
      rw [h.stack, hAround]
      exact List.mem_map_of_mem (List.mem_append_left _ hj)
    obtain rfl := Nat.add_eq_left.mp (hKinds.eq_global_of_struct hOpen hFound hKind)
    exact absurd hj hZero

/-- A struct that nothing hides is found in the global scope. -/
theorem lookupStruct_of_seen (hSeen : ¬ Hidden earlier c.around type)
    (hGlobal : bound earlier 0 type = some struct) (hStruct : struct.isStructDecl = true) :
    t.lookupStruct type = some struct := by
  obtain ⟨inner, hAround, hZero, hLookup⟩ := h.lookup_eq_or hKinds
  -- the scopes in front of the global one do not have the name, or it would be hidden
  have hNone : visible earlier inner type = none := by
    refine List.findSome?_eq_none_iff.mpr fun k hk => Option.eq_none_iff_forall_ne_some.mpr ?_
    refine fun symbol hBound => hSeen ⟨k, ?_, ne_of_mem_of_not_mem hk hZero, symbol, hBound⟩
    exact hAround ▸ List.mem_append_left _ hk
  rw [SymbolTable.lookupStruct, hLookup, hNone, Option.none_or, hGlobal,
    Option.filter_some_pos hStruct]

end Describes

/-- The fields of a struct are where its declaration has them. -/
theorem Describes.fieldsOf_eq (h : Describes g earlier c t)
    (hGlobal : bound earlier 0 type = some struct) (hStruct : struct.isStructDecl = true) :
    ∃ inside, fieldsOf earlier type = some inside ∧ struct.meaning = .structDecl (g + inside) := by
  obtain ⟨e, b, hBinding, hAct, -, rfl⟩ := h.bound_eq_some.mp hGlobal
  obtain ⟨id, inside, rfl⟩ := Binder.eq_struct_of_isStructDecl hStruct
  refine ⟨inside, ?_, rfl⟩
  rw [fieldsOf, hBinding, Option.bind_some, hAct]
  rfl

/-! ## Links -/

/-- The walk follows a link as the declarations say. -/
theorem Describes.access_link (h : Describes g earlier c t) (hKinds : t.Kinds g tables) {l : Loc}
    (hDefined : (l.denote t).isUndefined = false) (name : String) :
    Link earlier c.around (l.denote t) name (t.access (l.denote t) name) := by
  rw [access, hDefined, if_neg Bool.false_ne_true]
  cases hKind : (l.denote t).isStructVar with
  | false => exact .notStruct hKind
  | true =>
    obtain ⟨type, struct, hName, hGlobal, hStruct⟩ := hKinds.denote_struct hKind
    have hType := Meaning.eq_structVar hName
    have hBound : bound earlier 0 type = some struct := by rw [← h.lookup]; exact hGlobal
    rw [hName, Option.bind_some]
    -- the struct is in the global scope, so it can only be hidden
    by_cases hHidden : Hidden earlier c.around type
    · rw [h.lookupStruct_of_hidden hKinds hHidden]
      exact .hidden hType hHidden
    · obtain ⟨inside, hInside, hMeaning⟩ := h.fieldsOf_eq hBound hStruct
      rw [h.lookupStruct_of_seen hKinds hHidden hBound hStruct]
      dsimp only
      rw [hMeaning, Meaning.fields?, Option.bind_some, h.lookup]
      cases hField : bound earlier inside name with
      | none => exact .noField hType hHidden hInside hField
      | some symbol => exact .found hType hHidden hInside hField

end Journal

/-! ## Uses -/

/-- The last name of a location stands at the end of its identifiers. -/
theorem Loc.exists_idents_eq (l : Loc) : ∃ front, l.idents = front ++ [l.last] := by
  cases l with
  | var id => exact ⟨[], rfl⟩
  | field left id => exact ⟨left.idents, rfl⟩

namespace Journal.Describes

variable (h : Describes g earlier c t)
include h

/-- A name by itself, a variable or the function of a call. -/
theorem ident_cases (id : Ident) :
    ((t.denote id.name).isUndefined = false ∧ id.diagnose t = [] ∧
        Linked earlier c.around [id.annotate t]) ∨
      (t.denote id.name = .undefined ∧ id.diagnose t ≠ [] ∧
        Chain earlier c.around [id.annotate t] (id.diagnose t)) := by
  rw [SymbolTable.denote, Ident.diagnose, h.lookup_eq_visible]
  -- a callee is a chain of one name
  cases hVisible : visible earlier c.around id.name with
  | none =>
    have hUndefined : (id.annotate t).symbol? = some .undefined := by
      rw [Ident.annotate, SymbolTable.denote, h.lookup_eq_visible, hVisible]
      rfl
    exact .inr ⟨rfl, List.cons_ne_nil _ _,
      .undeclared hVisible (List.forall_mem_singleton.mpr hUndefined)⟩
  | some symbol =>
    obtain ⟨k, -, hBound⟩ := List.exists_of_findSome?_eq_some hVisible
    have hSymbol : (id.annotate t).symbol? = some symbol := by
      rw [Ident.annotate, SymbolTable.denote, h.lookup_eq_visible, hVisible]
      rfl
    exact .inl ⟨h.defined hBound, rfl, .root hVisible hSymbol (h.defined hBound)⟩

/-- The induction goes along the links: a chain that has been followed so far goes on or breaks
here, and one that is broken stays so. -/
theorem chain_cases (hKinds : t.Kinds g tables) (l : Loc) :
    ((l.denote t).isUndefined = false ∧ l.diagnose t = [] ∧
        Linked earlier c.around (l.annotate t).idents) ∨
      (l.denote t = .undefined ∧ l.diagnose t ≠ [] ∧
        Chain earlier c.around (l.annotate t).idents (l.diagnose t)) := by
  induction l with
  | var id => exact h.ident_cases id
  | field left id ih =>
    rw [Loc.annotate, Loc.idents, Loc.denote, Loc.diagnose]
    rcases ih with ⟨hDefined, hNone, hLinked⟩ | ⟨hUndefined, hErrors, hChain⟩
    · obtain ⟨front, hFront⟩ := (left.annotate t).exists_idents_eq
      have hLast : (left.annotate t).last = left.last.bind (left.denote t) := left.last_annotate t
      have hLink := h.access_link hKinds hDefined id.name
      rw [hFront, hLast] at hLinked
      rw [hFront, hLast, hNone, List.nil_append, List.append_assoc]
      -- behind a failure there is this one name
      have hBreaks (hSymbol : (t.access (left.denote t) id.name).symbol = .undefined)
          (hFails : ∀ found, t.access (left.denote t) id.name ≠ .found found) :
          Chain earlier c.around (front ++ [left.last.bind (left.denote t), id.bind .undefined])
            (reportAt (left.last.bind (left.denote t)) (id.bind .undefined)
              (t.access (left.denote t) id.name)) :=
        .broken hLinked rfl hLink hFails (List.forall_mem_singleton.mpr rfl)
      cases hAccess : t.access (left.denote t) id.name with
      | found symbol =>
        rw [hAccess] at hLink
        obtain ⟨inside, hFound⟩ : ∃ inside, bound earlier inside id.name = some symbol := by
          cases hLink with
          | found _ _ _ hField => exact ⟨_, hField⟩
        exact .inl ⟨h.defined hFound, rfl, .field hLinked rfl hLink rfl (h.defined hFound)⟩
      | broken =>
        rw [hAccess] at hLink
        cases hLink
      | notStruct | hidden | noField =>
        rw [hAccess] at hBreaks
        exact .inr ⟨rfl, List.cons_ne_nil _ _, hBreaks rfl (by rintro found ⟨⟩)⟩
    · -- the chain broke further left
      have hBroken : t.access (left.denote t) id.name = .broken := by
        rw [hUndefined]
        rfl
      rw [hBroken]
      show _ ∨ (_ ∧ left.diagnose t ++ [] ≠ [] ∧ Chain _ _ _ (left.diagnose t ++ []))
      rw [List.append_nil]
      exact .inr ⟨rfl, hErrors, hChain.snoc hErrors rfl⟩

/-- The names of a use, with its errors. -/
theorem use_chain (hKinds : t.Kinds g tables) {spot : Spot} (hUsed : spot.used ≠ []) :
    Chain earlier c.around (spot.annotate t).used (spot.diagnose t) := by
  cases spot with
  | declaration id typeNames => exact absurd rfl hUsed
  -- nothing is reported exactly if the chain is whole; otherwise the lemma says where it breaks
  | location l =>
    rcases h.chain_cases hKinds l with ⟨-, hNone, hLinked⟩ | ⟨-, -, hChain⟩
    · rw [Spot.diagnose, hNone]
      exact .whole hLinked
    · exact hChain
  | callee id =>
    rcases h.ident_cases id with ⟨-, hNone, hLinked⟩ | ⟨-, -, hChain⟩
    · rw [Spot.diagnose, hNone]
      exact .whole hLinked
    · exact hChain

end Journal.Describes

/-- The names of a use stay where they are. -/
theorem Spot.bare_used_annotate (t : SymbolTable) (spot : Spot) :
    (spot.annotate t).used.map Ident.bare = spot.used.map Ident.bare := by
  cases spot with
  | declaration id typeNames => rfl
  | location l =>
    show (l.annotate t).idents.map Ident.bare = l.idents.map Ident.bare
    rw [← Loc.idents_relabel, ← Loc.idents_relabel, Loc.bare_annotate]
  | callee id => rfl

/-- **Chains.** An analysis does not fail, and every use in its journal is a chain with the outcome
that the entries in front of it say, and no other: the names in front of the first link that fails
stand for symbols, all from there on are undefined, and the first failure is the one error. -/
theorem chains_break_at_first_failure (a : Analyzer) (p : Program) :
    ∃ q b journal, a.analyze p = .ok (q, b) ∧
      journal.map Entry.toEvent = p.events ∧ journal.map Entry.after = q.events ∧
      journal.flatMap Entry.errors = b.errors ∧
      ∀ earlier e later spot, journal = earlier ++ e :: later → e.act = .use spot →
        ∃ spot', e.result = .use spot' ∧ spot'.used.map Ident.bare = spot.used.map Ident.bare ∧
          (spot.used ≠ [] → Chain earlier e.around spot'.used e.errors ∧
            ∀ errors, Chain earlier e.around spot'.used errors → errors = e.errors) := by
  obtain ⟨q, b, journal, hAnalyze, hTells, -⟩ := analyze_told a p
  refine ⟨q, b, journal, hAnalyze, hTells.before, hTells.after, hTells.errors, ?_⟩
  rintro earlier e later spot rfl hUse
  obtain ⟨c, t, tables, hAround, hDescribes, hKinds, hResult, hErrors⟩ :=
    hTells.explains.entry.use spot hUse
  refine ⟨spot.annotate t, hResult, spot.bare_used_annotate t, fun hUsed => ?_⟩
  -- the chain of the entry is followed in the table that its journal describes
  have hChain : Chain earlier e.around (spot.annotate t).used e.errors := by
    rw [← hAround, hErrors]
    exact hDescribes.use_chain hKinds hUsed
  exact ⟨hChain, fun errors hOther => hOther.unique hChain⟩

/-- `struct S [ integer a. ] struct S v. void f[boolean S][ v:a++. ]`
`void g[struct S w][ w:a++. u:a++. v:b:c++. v:a:c++. v:a++. ]`: chains that break in every way. -/
def brokenProgram : Program :=
  ⟨[.struct ⟨⟨⟨1, 8⟩, "S", none⟩, [⟨.integer, ⟨⟨1, 20⟩, "a", none⟩, true⟩]⟩,
    .var ⟨.struct ⟨⟨2, 8⟩, "S", none⟩, ⟨⟨2, 10⟩, "v", none⟩, false⟩,
    .func
      { result := .void
        id := ⟨⟨3, 6⟩, "f", none⟩
        formals := [⟨.boolean, ⟨⟨3, 16⟩, "S", none⟩⟩]
        body := ⟨[], [.increment (.field (.var ⟨⟨4, 1⟩, "v", none⟩) ⟨⟨4, 3⟩, "a", none⟩)]⟩ },
    .func
      { result := .void
        id := ⟨⟨5, 6⟩, "g", none⟩
        formals := [⟨.struct ⟨⟨5, 15⟩, "S", none⟩, ⟨⟨5, 17⟩, "w", none⟩⟩]
        body := ⟨[], [
          .increment (.field (.var ⟨⟨6, 1⟩, "w", none⟩) ⟨⟨6, 3⟩, "a", none⟩),
          .increment (.field (.var ⟨⟨7, 1⟩, "u", none⟩) ⟨⟨7, 3⟩, "a", none⟩),
          .increment (.field (.field (.var ⟨⟨8, 1⟩, "v", none⟩) ⟨⟨8, 3⟩, "b", none⟩)
            ⟨⟨8, 5⟩, "c", none⟩),
          .increment (.field (.field (.var ⟨⟨9, 1⟩, "v", none⟩) ⟨⟨9, 3⟩, "a", none⟩)
            ⟨⟨9, 5⟩, "c", none⟩),
          .increment (.field (.var ⟨⟨10, 1⟩, "v", none⟩) ⟨⟨10, 3⟩, "a", none⟩)]⟩ }]⟩

/-- The struct is hidden in the first function alone, and the last chain is whole. -/
theorem brokenProgram_chains_break :
    ((Analyzer.new.analyze brokenProgram).toOption.map fun answer =>
        answer.2.errors.map fun d => (d.kind, d.line?, d.col?)) =
      some [(.invalidStructType, some 4, some 1), (.nonStructAccess, some 6, some 1),
        (.undeclared, some 7, some 1), (.invalidField, some 8, some 3),
        (.nonStructAccess, some 9, some 3)] ∧
    ∃ q b journal, Analyzer.new.analyze brokenProgram = .ok (q, b) ∧
      journal.map Entry.toEvent = brokenProgram.events ∧ journal.map Entry.after = q.events ∧
      journal.flatMap Entry.errors = b.errors ∧
      ∀ earlier e later spot, journal = earlier ++ e :: later → e.act = .use spot →
        ∃ spot', e.result = .use spot' ∧ spot'.used.map Ident.bare = spot.used.map Ident.bare ∧
          (spot.used ≠ [] → Chain earlier e.around spot'.used e.errors ∧
            ∀ errors, Chain earlier e.around spot'.used errors → errors = e.errors) :=
  ⟨by decide +kernel, chains_break_at_first_failure Analyzer.new brokenProgram⟩

end NameResolution
