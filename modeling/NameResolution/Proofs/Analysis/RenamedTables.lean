import Mathlib.Data.List.Forall2
import NameResolution.Analysis.Use
import NameResolution.Proofs.Analysis.TwoRuns
import NameResolution.Proofs.Scope.Table
import NameResolution.Proofs.Tree.Rename

/-!
# Renamed tables — the same bindings under other names

A scope holds names of one namespace: those of fields if it belongs to a struct, and lexical ones if
it is opened in the walk. Two tables can bind the same names in the same scopes but for a renaming
of each namespace. Then a use of a name means in the one what the renamed use means in the other.

* `Renaming` — a map for each namespace that keeps the known names apart.
* `Symbol.Counterpart` — the symbols of a declaration and of the renamed declaration.
* `SymbolTable.Renamed` — two tables that bind counterparts.
* `Expr.annotate_tracks`, `Expr.diagnose_renamed` — uses of names under two such tables.
-/

namespace NameResolution

open SymbolTable

/-! ## Renamings and what is known of the scopes -/

/-- New names in each namespace, different ones for different names among those that are known. -/
structure Renaming where
  map : NameKind → String → String
  known : NameKind → String → Prop
  injective : ∀ {kind name other}, known kind name → known kind other →
    map kind name = map kind other → name = other

/-- The namespaces of the scopes that have been made. -/
def ScopeKinds := ScopeId → Option NameKind

instance : Preorder ScopeKinds where
  le w w' := ∀ k kind, w k = some kind → w' k = some kind
  le_refl _ _ _ h := h
  le_trans _ _ _ h h' k kind hk := h' k kind (h k kind hk)

/-- One more scope has been made. -/
def ScopeKinds.make (w : ScopeKinds) (k : ScopeId) (kind : NameKind) : ScopeKinds :=
  fun j => if j = k then some kind else w j

/-- Noting the kind of a new scope keeps what is known of the others. -/
theorem ScopeKinds.le_make {w : ScopeKinds} {k : ScopeId} (h : w k = none) (kind : NameKind) :
    w ≤ w.make k kind := by
  intro j kind' hj
  have hNew : j ≠ k := by
    rintro rfl
    cases h.symm.trans hj
  exact (if_neg hNew).trans hj

variable {ρ : Renaming} {w w' : ScopeKinds} {t t' u u' : SymbolTable} {k : ScopeId}
  {kind : NameKind} {name : String}

/-! ## Counterparts -/

/-- The meanings of a declaration and of the renamed declaration. What is shown of formals and
functions is never looked up. -/
inductive Meaning.Counterpart (ρ : Renaming) (w : ScopeKinds) : Meaning → Meaning → Prop where
  | regular (type : String) : Counterpart ρ w (.regular type) (.regular type)
  | formal (type type' : String) : Counterpart ρ w (.formal type) (.formal type')
  | function (result result' : String) (params params' : List String) :
    Counterpart ρ w (.function result params) (.function result' params')
  | structDecl {fields : ScopeId} (h : w fields = some .field) :
    Counterpart ρ w (.structDecl fields) (.structDecl fields)
  | structVar {name : String} (h : ρ.known .lexical name) :
    Counterpart ρ w (.structVar name) (.structVar (ρ.map .lexical name))

/-- The symbols of a declaration and of the renamed declaration. -/
inductive Symbol.Counterpart (ρ : Renaming) (w : ScopeKinds) : Symbol → Symbol → Prop where
  | declared {k : ScopeId} {kind : NameKind} {name : String} {meaning meaning' : Meaning}
    (hScope : w k = some kind) (hName : ρ.known kind name)
    (hMeaning : Meaning.Counterpart ρ w meaning meaning') :
    Counterpart ρ w ⟨.declared k name, meaning⟩ ⟨.declared k (ρ.map kind name), meaning'⟩

/-- What a use and the renamed use denote: both are undefined, or they are counterparts. -/
inductive Symbol.Denoted (ρ : Renaming) (w : ScopeKinds) : Symbol → Symbol → Prop where
  | undefined : Denoted ρ w .undefined .undefined
  | declared {s s' : Symbol} (h : Symbol.Counterpart ρ w s s') : Denoted ρ w s s'

/-- Counterparts stay counterparts when more scopes are known. -/
theorem Meaning.Counterpart.mono {m m' : Meaning} (h : Meaning.Counterpart ρ w m m')
    (hMore : w ≤ w') : Meaning.Counterpart ρ w' m m' := by
  cases h with
  | structDecl h => exact .structDecl (hMore _ _ h)
  | regular | formal | function | structVar => constructor <;> assumption

/-- Counterparts stay counterparts when more scopes are known. -/
theorem Symbol.Counterpart.mono {s s' : Symbol} (h : Symbol.Counterpart ρ w s s')
    (hMore : w ≤ w') : Symbol.Counterpart ρ w' s s' := by
  cases h with
  | declared hScope hName hMeaning => exact .declared (hMore _ _ hScope) hName (hMeaning.mono hMore)

/-- What names denote stays matched when more scopes are known. -/
theorem Symbol.Denoted.mono {s s' : Symbol} (h : Symbol.Denoted ρ w s s') (hMore : w ≤ w') :
    Symbol.Denoted ρ w' s s' := by
  cases h with
  | undefined => exact .undefined
  | declared h => exact .declared (h.mono hMore)

/-- Counterparts are of one category. -/
theorem Symbol.Counterpart.category_eq {s s' : Symbol} (h : Symbol.Counterpart ρ w s s') :
    s'.category = s.category := by
  cases h with
  | declared _ _ hMeaning => cases hMeaning <;> rfl

/-- A counterpart of a formal is a formal. -/
theorem Symbol.Counterpart.isFormal_eq {s s' : Symbol} (h : Symbol.Counterpart ρ w s s') :
    s.isFormal = s'.isFormal := by
  rw [isFormal, isFormal, h.category_eq]

/-- A counterpart of a struct is a struct. -/
theorem Symbol.Counterpart.isStructDecl_eq {s s' : Symbol} (h : Symbol.Counterpart ρ w s s') :
    s.isStructDecl = s'.isStructDecl := by
  rw [isStructDecl, isStructDecl, h.category_eq]

/-- What two names denote is of one category. -/
theorem Symbol.Denoted.category_eq {s s' : Symbol} (h : Symbol.Denoted ρ w s s') :
    s'.category = s.category := by
  cases h with
  | undefined => rfl
  | declared h => exact h.category_eq

/-- A renaming keeps declarations apart: those of one scope by its map, others by their scopes. -/
theorem Symbol.Denoted.origin_eq_iff {s₁ s₁' s₂ s₂' : Symbol} (h₁ : Symbol.Denoted ρ w s₁ s₁')
    (h₂ : Symbol.Denoted ρ w s₂ s₂') : s₁.origin = s₂.origin ↔ s₁'.origin = s₂'.origin := by
  cases h₁ with
  | undefined =>
    cases h₂ with
    | undefined => exact Iff.rfl
    | declared h => cases h with | declared => exact ⟨nofun, nofun⟩
  | declared h =>
    cases h with
    | @declared k₁ kind₁ name₁ _ _ hScope₁ hName₁ _ =>
      cases h₂ with
      | undefined => exact ⟨nofun, nofun⟩
      | declared h =>
        cases h with
        | @declared k₂ kind₂ name₂ _ _ hScope₂ hName₂ _ =>
          -- a symbol has its scope and its name from its declaration, and the renaming is injective
          -- on the names of that scope's kind
          constructor
          · intro hSame
            obtain ⟨rfl, rfl⟩ := Origin.declared.inj hSame
            obtain rfl := Option.some.inj (hScope₁.symm.trans hScope₂)
            rfl
          · intro hSame
            obtain ⟨rfl, hNames⟩ := Origin.declared.inj hSame
            obtain rfl := Option.some.inj (hScope₁.symm.trans hScope₂)
            show Origin.declared k₁ name₁ = Origin.declared k₁ name₂
            rw [ρ.injective hName₁ hName₂ hNames]

/-! ## Lookups that come to counterparts -/

section Lookups

variable {α β : Type} {R S : α → β → Prop} {a : Option α} {b : Option β} {p : α → Bool}
  {q : β → Bool}

/-- A relation between two answers may be weakened. -/
theorem rel_imp (h : Option.Rel R a b) (hImp : ∀ x y, R x y → S x y) : Option.Rel S a b := by
  cases h with
  | none => exact .none
  | some hBoth => exact .some (hImp _ _ hBoth)

/-- Tests that agree keep related answers related. -/
theorem rel_filter (h : Option.Rel R a b) (hSame : ∀ x y, R x y → p x = q y) :
    Option.Rel R (a.filter p) (b.filter q) := by
  cases h with
  | none => exact .none
  | @some x y hBoth =>
    rw [Option.filter_some, Option.filter_some, hSame x y hBoth]
    split
    · exact .some hBoth
    · exact .none

/-- Related answers are both there or both missing. -/
theorem isSome_eq_of_rel (h : Option.Rel R a b) : a.isSome = b.isSome := by
  cases h <;> rfl

/-- Tests that agree have the same result on related answers. -/
theorem any_eq_of_rel (h : Option.Rel R a b) (hSame : ∀ x y, R x y → p x = q y) :
    a.any p = b.any q := by
  cases h with
  | none => rfl
  | some hBoth => exact hSame _ _ hBoth

/-- The first answers found in two lists are related if all answers are. -/
theorem findSome?_rel {γ : Type} {f : γ → Option α} {g : γ → Option β} {xs : List γ}
    (h : ∀ x ∈ xs, Option.Rel R (f x) (g x)) : Option.Rel R (xs.findSome? f) (xs.findSome? g) := by
  induction xs with
  | nil => exact .none
  | cons x xs ih =>
    obtain ⟨hHead, hRest⟩ := List.forall_mem_cons.mp h
    rw [List.findSome?_cons, List.findSome?_cons]
    generalize f x = a, g x = b at hHead
    cases hHead with
    | none => exact ih hRest
    | some hBoth => exact .some hBoth

end Lookups

/-! ## Tables that bind counterparts -/

/-- The tables have the same scopes. Whatever known name the first one binds in a scope, the second
one binds the renamed name there to the counterpart, and it binds no other renamed names. All open
scopes are lexical. -/
structure SymbolTable.Renamed (ρ : Renaming) (w : ScopeKinds) (t u : SymbolTable) : Prop where
  opened : t.stack ≠ []
  stack : u.stack = t.stack
  length : u.store.length = t.store.length
  unmade : ∀ k, t.store.length ≤ k → w k = none
  lexical : ∀ k ∈ t.stack, w k = some .lexical
  scopes : ∀ {k kind}, w k = some kind → ∀ {name}, ρ.known kind name →
    Option.Rel (Symbol.Counterpart ρ w) ((t.scope k).lookup name)
      ((u.scope k).lookup (ρ.map kind name))

namespace SymbolTable.Renamed

/-- A scope of a known kind has been made. -/
theorem made (h : t.Renamed ρ w u) (hk : w k = some kind) : k < t.store.length := by
  refine Nat.lt_of_not_le fun hLe => ?_
  cases (h.unmade k hLe).symm.trans hk

/-- From an empty global scope on nothing is bound. -/
theorem restart (ρ : Renaming) (t : SymbolTable) :
    t.restart.Renamed ρ (ScopeKinds.make (fun _ => none) t.store.length .lexical) t.restart where
  opened := List.cons_ne_nil _ _
  stack := rfl
  length := rfl
  unmade k hk := by
    rw [restart_length] at hk
    exact if_neg (Nat.ne_of_gt (Nat.lt_of_succ_le hk))
  lexical k hk := by
    rw [restart_stack, List.mem_singleton] at hk
    exact if_pos hk
  scopes {k kind} hk name hName := by
    -- the only scope of a known kind is the global one, and it is empty in both
    have hGlobal : k = t.store.length := by
      by_contra hOther
      cases (if_neg hOther).symm.trans hk
    rw [restart_scope, scope_of_length_le (Nat.le_of_eq hGlobal.symm)]
    exact .none

/-- A new scope, of whatever kind, binds nothing. -/
theorem newScope (h : t.Renamed ρ w u) (kind : NameKind) :
    t.newScope.2.Renamed ρ (w.make t.store.length kind) u.newScope.2 where
  opened := h.opened
  stack := h.stack
  length := by rw [newScope_length, newScope_length, h.length]
  unmade k hk := by
    rw [newScope_length] at hk
    exact (if_neg (Nat.ne_of_gt (Nat.lt_of_succ_le hk))).trans (h.unmade k (Nat.le_of_succ_le hk))
  lexical k hk := ScopeKinds.le_make (h.unmade _ (Nat.le_refl _)) kind k _ (h.lexical k hk)
  scopes {k kind'} hk name hName := by
    rw [newScope_scope, newScope_scope]
    -- the new scope is empty in both, and the others are those of before
    by_cases hNew : k = t.store.length
    · rw [scope_of_length_le (Nat.le_of_eq hNew.symm),
        scope_of_length_le (Nat.le_of_eq (h.length.trans hNew.symm))]
      exact .none
    · refine rel_imp (h.scopes ((if_neg hNew).symm.trans hk) hName) fun _ _ hBoth => ?_
      exact hBoth.mono (ScopeKinds.le_make (h.unmade _ (Nat.le_refl _)) kind)

/-- The same scopes are opened or left in both tables. -/
theorem with_stack (h : t.Renamed ρ w u) {stack : List ScopeId} (hOpened : stack ≠ [])
    (hLexical : ∀ k ∈ stack, w k = some .lexical) :
    Renamed ρ w { t with stack := stack } { u with stack := stack } where
  opened := hOpened
  stack := rfl
  length := h.length
  unmade := h.unmade
  lexical := hLexical
  scopes := h.scopes

/-- Both open a lexical scope. -/
theorem push (h : t.Renamed ρ w u) :
    t.push.2.Renamed ρ (w.make t.store.length .lexical) u.push.2 := by
  have hPushed := (h.newScope .lexical).with_stack
    (List.cons_ne_nil t.store.length t.stack) fun k hk => by
      rcases List.mem_cons.mp hk with rfl | hk
      · exact if_pos rfl
      · exact (h.newScope .lexical).lexical k hk
  have hSame : u.push.2 = { u.newScope.2 with stack := t.store.length :: t.stack } := by
    rw [← h.length, ← h.stack]
    rfl
  rw [hSame]
  exact hPushed

/-- Opening and closing scopes keeps the tables renamed. -/
theorem keepsScopes (ρ : Renaming) : KeepsScopes (Renamed ρ) where
  stack h := h.stack
  push h := ⟨_, ScopeKinds.le_make (h.unmade _ (Nat.le_refl _)) .lexical, h.push⟩
  leave hMore h h' _ := by
    rw [h.stack]
    exact h'.with_stack h.opened fun k hk => hMore k _ (h.lexical k hk)

/-! ### Looking names up -/

/-- A known name and the renamed one are looked up alike. -/
theorem lookup (h : t.Renamed ρ w u) (hName : ρ.known .lexical name) :
    Option.Rel (Symbol.Counterpart ρ w) (t.lookup name) (u.lookup (ρ.map .lexical name)) := by
  rw [SymbolTable.lookup, SymbolTable.lookup, h.stack]
  exact findSome?_rel fun k hk => h.scopes (h.lexical k hk) hName

/-- A known name and the renamed one are looked up alike in the innermost scope. -/
theorem lookupLocal (h : t.Renamed ρ w u) (hName : ρ.known .lexical name) :
    Option.Rel (Symbol.Counterpart ρ w) (t.lookupLocal name)
      (u.lookupLocal (ρ.map .lexical name)) := by
  obtain ⟨k, rest, hStack⟩ := List.exists_cons_of_ne_nil h.opened
  rw [SymbolTable.lookupLocal, SymbolTable.lookupLocal, h.stack, hStack]
  exact h.scopes (h.lexical k (hStack ▸ List.mem_cons_self)) hName

/-- A known struct name and the renamed one lead to the same struct. -/
theorem lookupStruct (h : t.Renamed ρ w u) (hName : ρ.known .lexical name) :
    Option.Rel (Symbol.Counterpart ρ w) (t.lookupStruct name)
      (u.lookupStruct (ρ.map .lexical name)) :=
  rel_filter (h.lookup hName) fun _ _ hBoth => hBoth.isStructDecl_eq

/-- A known name and the renamed one denote counterparts. -/
theorem denote (h : t.Renamed ρ w u) (hName : ρ.known .lexical name) :
    Symbol.Denoted ρ w (t.denote name) (u.denote (ρ.map .lexical name)) := by
  have hFound := h.lookup hName
  rw [SymbolTable.denote, SymbolTable.denote]
  generalize t.lookup name = a, u.lookup (ρ.map .lexical name) = b at hFound
  cases hFound with
  | none => exact .undefined
  | some hBoth => exact .declared hBoth

/-! ### Declaring -/

/-- Both scopes bind the name already, or both take it. -/
theorem declareIn (h : t.Renamed ρ w u) (hk : w k = some kind) (hName : ρ.known kind name)
    {symbol symbol' : Symbol} (hSymbol : Symbol.Counterpart ρ w symbol symbol') :
    Option.Rel (Renamed ρ w) (t.declareIn k name symbol)
      (u.declareIn k (ρ.map kind name) symbol') := by
  have hSome := isSome_eq_of_rel (h.scopes hk hName)
  cases hDeclared : t.declareIn k name symbol with
  | none =>
    rw [declareIn_eq_none, hSome] at hDeclared
    have hTaken : u.declareIn k (ρ.map kind name) symbol' = none := declareIn_eq_none.mpr hDeclared
    rw [hTaken]
    exact .none
  | some t' =>
    obtain ⟨u', hDeclared'⟩ : ∃ u', u.declareIn k (ρ.map kind name) symbol' = some u' := by
      refine Option.ne_none_iff_exists'.mp fun hTaken => ?_
      rw [declareIn_eq_none, ← hSome, (declareIn_eq_some hDeclared).1] at hTaken
      cases hTaken
    rw [hDeclared']
    have hMade := h.made hk
    have hLookup := lookup_declareIn_eq hMade hDeclared
    have hLookup' := lookup_declareIn_eq (h.length ▸ hMade) hDeclared'
    have hStack := (declareIn_eq_some hDeclared).2.1
    refine .some ?_
    exact
      { opened := hStack ▸ h.opened
        stack := by rw [(declareIn_eq_some hDeclared').2.1, hStack, h.stack]
        length := by rw [declareIn_length hDeclared', declareIn_length hDeclared, h.length]
        unmade := declareIn_length hDeclared ▸ h.unmade
        lexical := hStack ▸ h.lexical
        scopes := fun {j kind'} hj bound hBound => by
          -- the renaming keeps the declared name apart from all others of the scope
          have hSame : (j = k ∧ ρ.map kind name = ρ.map kind' bound) ↔ (j = k ∧ name = bound) := by
            refine and_congr_right fun hjk => ?_
            obtain rfl : kind = kind' := Option.some.inj (hk.symm.trans (hjk ▸ hj))
            exact ⟨ρ.injective hName hBound, congrArg _⟩
          rw [hLookup, hLookup']
          simp only [hSame]
          have hOld := h.scopes hj hBound
          generalize (t.scope j).lookup bound = a,
            (u.scope j).lookup (ρ.map kind' bound) = b at hOld
          cases hOld with
          | some hBoth => exact .some hBoth
          | none =>
            rw [Option.none_or, Option.none_or]
            split
            · exact .some hSymbol
            · exact .none }

end SymbolTable.Renamed

/-! ## Uses -/

/-- What field accesses on counterparts come to. -/
inductive Access.Counterpart (ρ : Renaming) (w : ScopeKinds) : Access → Access → Prop where
  | found {s s' : Symbol} (h : Symbol.Counterpart ρ w s s') :
    Counterpart ρ w (.found s) (.found s')
  | broken : Counterpart ρ w .broken .broken
  | notStruct : Counterpart ρ w .notStruct .notStruct
  | hidden : Counterpart ρ w .hidden .hidden
  | noField : Counterpart ρ w .noField .noField

/-- A struct is looked up under its renamed name, and in it the renamed field. -/
theorem SymbolTable.Renamed.access (h : t.Renamed ρ w u) {left left' : Symbol}
    (hLeft : Symbol.Denoted ρ w left left') (hName : ρ.known .field name) :
    Access.Counterpart ρ w (t.access left name) (u.access left' (ρ.map .field name)) := by
  cases hLeft with
  | undefined => exact .broken
  | declared hLeft =>
    obtain ⟨-, -, hMeaning⟩ := hLeft
    cases hMeaning with
    | regular | formal | function | structDecl => exact .notStruct
    | @structVar type hType =>
      -- the left side is a variable of a struct
      have hStruct := h.lookupStruct hType
      have hVisible : ∀ struct, t.lookupStruct type = some struct → struct.isStructDecl = true :=
        fun struct hFound => (Option.filter_eq_some_iff.mp hFound).2
      simp only [SymbolTable.access, Symbol.isUndefined, Symbol.isStructVar, Symbol.category,
        Meaning.category, Meaning.struct?, Option.bind_some, reduceCtorEq, decide_true,
        decide_false, Bool.false_eq_true, Bool.not_true, if_false]
      generalize t.lookupStruct type = a, u.lookupStruct (ρ.map .lexical type) = b
        at hStruct hVisible
      cases hStruct with
      | none => exact .hidden
      | @some struct struct' hBoth =>
        have hIsStruct := hVisible struct rfl
        obtain ⟨-, -, hInside⟩ := hBoth
        cases hInside with
        | regular | formal | function | structVar => cases hIsStruct
        | @structDecl fields hFields =>
          have hField := h.scopes hFields hName
          simp only [Meaning.fields?, Option.bind_some]
          generalize (t.scope fields).lookup name = c,
            (u.scope fields).lookup (ρ.map .field name) = d at hField
          cases hField with
          | none => exact .noField
          | some hFound => exact .found hFound

/-- The identifiers carry no symbols, and their names are known. -/
def Renaming.Covers (ρ : Renaming) (os : List Occurrence) : Prop :=
  ∀ o ∈ os, o.id.symbol? = none ∧ ρ.known o.kind o.id.name

/-- Two lists are covered exactly if each of them is. -/
theorem Renaming.Covers.append {os os' : List Occurrence} :
    ρ.Covers (os ++ os') ↔ ρ.Covers os ∧ ρ.Covers os' :=
  List.forall_mem_append

/-- A list is covered exactly if its head and its rest are. -/
theorem Renaming.Covers.cons {o : Occurrence} {os : List Occurrence} :
    ρ.Covers (o :: os) ↔ (o.id.symbol? = none ∧ ρ.known o.kind o.id.name) ∧ ρ.Covers os :=
  List.forall_mem_cons

/-- Both identifiers are left without a symbol, or carry counterparts. -/
inductive Ident.Tracks (ρ : Renaming) (w : ScopeKinds) (id id' : Ident) : Prop where
  | unbound (h : id.symbol? = none) (h' : id'.symbol? = none)
  | bound {s s' : Symbol} (h : id.symbol? = some s) (h' : id'.symbol? = some s')
    (hDenoted : Symbol.Denoted ρ w s s')

/-- Names that are bound to what they denote track each other. -/
theorem Ident.Tracks.bind {s s' : Symbol} (id id' : Ident) (h : Symbol.Denoted ρ w s s') :
    (id.bind s).Tracks ρ w (id'.bind s') :=
  .bound rfl rfl h

/-- Names keep tracking each other when more scopes are known. -/
theorem Ident.Tracks.mono {id id' : Ident} (h : id.Tracks ρ w id') (hMore : w ≤ w') :
    id.Tracks ρ w' id' := by
  cases h with
  | unbound h h' => exact .unbound h h'
  | bound h h' hDenoted => exact .bound h h' (hDenoted.mono hMore)

/-- The identifiers of two trees track each other one by one. -/
def Tracked {α : Type} (ρ : Renaming) (idents : α → List Ident) (w : ScopeKinds) (x x' : α) :
    Prop :=
  List.Forall₂ (Ident.Tracks ρ w) (idents x) (idents x')

/-- Tracking lasts through the rest of the walk. -/
theorem Tracked.lasting {α : Type} {idents : α → List Ident} : Lasting (Tracked ρ idents) :=
  fun hMore _ _ h => List.Forall₂.imp (fun _ _ hTracks => hTracks.mono hMore) h

section Uses

variable (h : t.Renamed ρ w u)
include h

/-- A renamed name has the errors of the name. -/
theorem Ident.diagnose_renamed {id : Ident} (hName : ρ.known .lexical id.name) :
    (id.rename (ρ.map .lexical)).diagnose u = id.diagnose t := by
  have hFound := h.lookup hName
  simp only [diagnose, rename]
  generalize t.lookup id.name = a, u.lookup (ρ.map .lexical id.name) = b at hFound
  cases hFound <;> rfl

/-- A name and the renamed one get symbols that match. -/
theorem Ident.annotate_tracks {id : Ident} (hName : ρ.known .lexical id.name) :
    (id.annotate t).Tracks ρ w ((id.rename (ρ.map .lexical)).annotate u) :=
  .bind _ _ (h.denote hName)

/-- A location and the renamed one denote counterparts. -/
theorem Loc.denote_renamed {l : Loc} (hNames : ρ.Covers l.occurrences) :
    Symbol.Denoted ρ w (l.denote t) ((l.rename ρ.map).denote u) := by
  induction l with
  | var id => exact h.denote (hNames _ List.mem_cons_self).2
  | field left id ih =>
    obtain ⟨hLeft, hField⟩ := Renaming.Covers.append.mp hNames
    -- the fields are looked up in field tables of the same struct
    have hAccess := h.access (ih hLeft) (hField _ List.mem_cons_self).2
    show Symbol.Denoted ρ w (t.access (left.denote t) id.name).symbol
      (u.access ((left.rename ρ.map).denote u) (ρ.map .field id.name)).symbol
    generalize t.access (left.denote t) id.name = a,
      u.access ((left.rename ρ.map).denote u) (ρ.map .field id.name) = b at hAccess
    cases hAccess with
    | found hFound => exact .declared hFound
    | broken | notStruct | hidden | noField => exact .undefined

omit h in
/-- Renaming moves nothing. -/
theorem Loc.last_rename_pos (l : Loc) : (l.rename ρ.map).last.pos = l.last.pos := by
  cases l <;> rfl

/-- A renamed location has the errors of the location. -/
theorem Loc.diagnose_renamed {l : Loc} (hNames : ρ.Covers l.occurrences) :
    (l.rename ρ.map).diagnose u = l.diagnose t := by
  induction l with
  | var id => exact id.diagnose_renamed h (hNames _ List.mem_cons_self).2
  | field left id ih =>
    obtain ⟨hLeft, hField⟩ := Renaming.Covers.append.mp hNames
    have hAccess := h.access (left.denote_renamed h hLeft) (hField _ List.mem_cons_self).2
    rw [Loc.rename, diagnose, diagnose, ih hLeft]
    congr 1
    show (u.access ((left.rename ρ.map).denote u) (ρ.map .field id.name)).diagnose _ _ = _
    generalize t.access (left.denote t) id.name = a,
      u.access ((left.rename ρ.map).denote u) (ρ.map .field id.name) = b at hAccess
    -- an error points at the last name on the left, or at the field
    cases hAccess with
    | found | broken => rfl
    | noField => rfl
    | notStruct | hidden => rw [Access.diagnose, Access.diagnose, Loc.last_rename_pos]

/-- A location and the renamed one get symbols that match. -/
theorem Loc.annotate_tracks {l : Loc} (hNames : ρ.Covers l.occurrences) :
    Tracked ρ Loc.idents w (l.annotate t) ((l.rename ρ.map).annotate u) := by
  induction l with
  | var id => exact .cons (id.annotate_tracks h (hNames _ List.mem_cons_self).2) .nil
  | field left id ih =>
    exact List.rel_append (ih (Renaming.Covers.append.mp hNames).1)
      (.cons (.bind _ _ ((Loc.field left id).denote_renamed h hNames)) .nil)

end Uses

mutual

/-- A renamed expression has the errors of the expression. -/
theorem Expr.diagnose_renamed (h : t.Renamed ρ w u) : (e : Expr) → ρ.Covers e.occurrences →
    (e.rename ρ.map).diagnose u = e.diagnose t
  | .trueLit _, _ | .falseLit _, _ | .intLit _ _, _ | .strLit _ _, _ => rfl
  | .loc location, hNames => location.diagnose_renamed h hNames
  -- the names of both sides are covered, and so each side is diagnosed as before
  | .assign target value, hNames => by
    obtain ⟨hTarget, hValue⟩ := Renaming.Covers.append.mp hNames
    rw [Expr.rename, Expr.diagnose, Expr.diagnose, target.diagnose_renamed h hTarget,
      Expr.diagnose_renamed h value hValue]
  | .call callee args, hNames => by
    obtain ⟨hCallee, hArgs⟩ := Renaming.Covers.cons.mp hNames
    rw [Expr.rename, Expr.diagnose, Expr.diagnose, callee.diagnose_renamed h hCallee.2,
      Expr.diagnoseAll_renamed h args hArgs]
  | .unary op operand, hNames => Expr.diagnose_renamed h operand hNames
  | .binary op left right, hNames => by
    obtain ⟨hLeft, hRight⟩ := Renaming.Covers.append.mp hNames
    rw [Expr.rename, Expr.diagnose, Expr.diagnose, Expr.diagnose_renamed h left hLeft,
      Expr.diagnose_renamed h right hRight]

theorem Expr.diagnoseAll_renamed (h : t.Renamed ρ w u) :
    (es : List Expr) → ρ.Covers (Expr.occurrencesAll es) →
      Expr.diagnoseAll u (Expr.renameAll ρ.map es) = Expr.diagnoseAll t es
  | [], _ => rfl
  | e :: es, hNames => by
    obtain ⟨hHead, hRest⟩ := Renaming.Covers.append.mp hNames
    rw [Expr.renameAll, Expr.diagnoseAll, Expr.diagnoseAll, Expr.diagnose_renamed h e hHead,
      Expr.diagnoseAll_renamed h es hRest]

end

mutual

/-- An expression and the renamed one get symbols that match. -/
theorem Expr.annotate_tracks (h : t.Renamed ρ w u) : (e : Expr) → ρ.Covers e.occurrences →
    Tracked ρ Expr.idents w (e.annotate t) ((e.rename ρ.map).annotate u)
  | .trueLit _, _ | .falseLit _, _ | .intLit _ _, _ | .strLit _ _, _ => .nil
  | .loc location, hNames => location.annotate_tracks h hNames
  -- the tracked names of both sides, one list behind the other
  | .assign target value, hNames =>
    have hBoth := Renaming.Covers.append.mp hNames
    List.rel_append (target.annotate_tracks h hBoth.1) (Expr.annotate_tracks h value hBoth.2)
  | .call callee args, hNames =>
    have hBoth := Renaming.Covers.cons.mp hNames
    .cons (callee.annotate_tracks h hBoth.1.2) (Expr.annotateAll_tracks h args hBoth.2)
  | .unary _ operand, hNames => Expr.annotate_tracks h operand hNames
  | .binary _ left right, hNames =>
    have hBoth := Renaming.Covers.append.mp hNames
    List.rel_append (Expr.annotate_tracks h left hBoth.1) (Expr.annotate_tracks h right hBoth.2)

theorem Expr.annotateAll_tracks (h : t.Renamed ρ w u) :
    (es : List Expr) → ρ.Covers (Expr.occurrencesAll es) →
      Tracked ρ Expr.identsAll w (Expr.annotateAll t es)
        (Expr.annotateAll u (Expr.renameAll ρ.map es))
  | [], _ => .nil
  | e :: es, hNames =>
    have hBoth := Renaming.Covers.append.mp hNames
    List.rel_append (Expr.annotate_tracks h e hBoth.1) (Expr.annotateAll_tracks h es hBoth.2)

end

end NameResolution
