import NameResolution.Proofs.Analysis.Mirror
import NameResolution.Proofs.Analysis.Trace

/-!
# Structs — where their symbols are, and what a declaration adds

Structs are declared in the global scope only, and the scope of their fields is never opened. So
wherever the name of a struct is visible, it stands for the struct that the global scope holds
under it. Bindings are added, but none is ever replaced, so this struct stays the same.

* `SymbolTable.Anchored` — the global scope, and structs in it only.
* `Binds` — what the declaration of a name changes.
* `Grows` — bindings stay, and the fields of structs stay as they are.
-/

namespace NameResolution

open SymbolTable

variable {g k : ScopeId} {rest : List ScopeId} {t t' t'' : SymbolTable}
  {errors : List Diagnostic}

/-! ## The global scope -/

namespace SymbolTable

/-- If the symbol is that of a struct, it is in the global scope `g`, and the scope of its fields is
one that was made later and is not open. -/
def Housed (g : ScopeId) (t : SymbolTable) (k : ScopeId) (symbol : Symbol) : Prop :=
  symbol.isStructDecl = true → k = g ∧ ∃ inside, symbol.meaning = .structDecl inside ∧
    g ≤ inside ∧ inside < t.store.length ∧ inside ∉ t.stack

/-- The outermost open scope is `g`, all others were made after it, and among these scopes it alone
holds structs. -/
structure Anchored (g : ScopeId) (t : SymbolTable) : Prop where
  outermost : t.stack.getLast? = some g
  made : ∀ k ∈ t.stack, g ≤ k ∧ k < t.store.length
  structs : ∀ k name symbol, g ≤ k → (t.scope k).lookup name = some symbol → t.Housed g k symbol

/-- A symbol stays housed when scopes are made and opened. -/
theorem Housed.mono {symbol : Symbol} (h : t.Housed g k symbol)
    (hLength : t.store.length ≤ t'.store.length)
    (hStack : ∀ j ∈ t'.stack, j ∈ t.stack ∨ t.store.length ≤ j) : t'.Housed g k symbol := by
  intro hStruct
  obtain ⟨hGlobal, inside, hMeaning, hBase, hMade, hClosed⟩ := h hStruct
  refine ⟨hGlobal, inside, hMeaning, hBase, Nat.lt_of_lt_of_le hMade hLength, fun hMem => ?_⟩
  rcases hStack inside hMem with hOld | hNew
  · exact hClosed hOld
  · exact Nat.not_le_of_lt hMade hNew

namespace Anchored

/-- The global scope is open. -/
theorem mem (h : t.Anchored g) : g ∈ t.stack :=
  List.mem_of_getLast? h.outermost

/-- The global scope has been made. -/
theorem global_made (h : t.Anchored g) : g < t.store.length :=
  (h.made g h.mem).2

/-- A struct that is visible under a name is the one that the global scope holds under it. -/
theorem lookupStruct (h : t.Anchored g) {name : String} {struct : Symbol}
    (hVisible : t.lookupStruct name = some struct) : (t.scope g).lookup name = some struct := by
  -- it is held by one of the open scopes, and of these only the global one holds structs
  obtain ⟨hLookup, hStruct⟩ := Option.filter_eq_some_iff.mp hVisible
  obtain ⟨k, hk, hFound⟩ := List.exists_of_findSome?_eq_some hLookup
  obtain ⟨rfl, -⟩ := h.structs k name struct (h.made k hk).1 hFound hStruct
  exact hFound

/-- A table that starts over is anchored in its only scope. -/
theorem restart (t : SymbolTable) : t.restart.Anchored t.store.length where
  outermost := rfl
  made k hk := by
    rw [restart_stack, List.mem_singleton] at hk
    rw [restart_length, hk]
    exact ⟨Nat.le_refl _, Nat.lt_succ_self _⟩
  structs k name symbol hk hFound := by
    rw [restart_scope, scope_of_length_le hk] at hFound
    cases hFound

/-- Making a scope keeps a table anchored. -/
theorem newScope (h : t.Anchored g) : t.newScope.2.Anchored g where
  outermost := h.outermost
  made k hk := by
    rw [newScope_length]
    exact (h.made k hk).imp_right Nat.lt_succ_of_lt
  structs k name symbol hk hFound := by
    rw [newScope_scope] at hFound
    exact (h.structs k name symbol hk hFound).mono (by simp) fun _ hj => .inl hj

/-- Opening a scope keeps a table anchored. -/
theorem push (h : t.Anchored g) : t.push.2.Anchored g where
  outermost := by
    rw [push_stack, List.getLast?_cons, h.outermost]
    rfl
  made k hk := by
    rw [push_stack, List.mem_cons] at hk
    rw [push_length]
    rcases hk with rfl | hk
    · exact ⟨Nat.le_of_lt h.global_made, Nat.lt_succ_self _⟩
    · exact (h.made k hk).imp_right Nat.lt_succ_of_lt
  structs k name symbol hk hFound := by
    rw [push_scope] at hFound
    refine (h.structs k name symbol hk hFound).mono (by simp) fun j hj => ?_
    -- the number of the new scope is not that of any fields yet
    rw [push_stack, List.mem_cons] at hj
    exact hj.elim (fun hNew => .inr (Nat.le_of_eq hNew.symm)) .inl

theorem pop {inner : ScopeId} (h : t.Anchored g) (hStack : t.stack = inner :: k :: rest) :
    Anchored g { t with stack := k :: rest } where
  -- the outermost scope is still there, as the stack has one below the innermost
  outermost := by
    rw [← h.outermost, hStack, List.getLast?_cons_cons]
  made j hj := h.made j (hStack ▸ List.mem_cons_of_mem inner hj)
  structs j name symbol hj hFound :=
    (h.structs j name symbol hj hFound).mono (Nat.le_refl _) fun i hi =>
      .inl (hStack ▸ List.mem_cons_of_mem inner hi)

end Anchored

end SymbolTable

/-! ## One scope grows -/

/-- The scope `k` may have more bindings, and nothing else is changed. -/
structure Extends (k : ScopeId) (t t' : SymbolTable) : Prop where
  stack : t'.stack = t.stack
  length : t'.store.length = t.store.length
  other : ∀ j, j ≠ k → t'.scope j = t.scope j
  keeps : ∀ name symbol, (t.scope k).lookup name = some symbol →
    (t'.scope k).lookup name = some symbol

namespace Extends

/-- A scope extends itself. -/
theorem refl (k : ScopeId) (t : SymbolTable) : Extends k t t :=
  ⟨rfl, rfl, fun _ _ => rfl, fun _ _ h => h⟩

theorem trans (h : Extends k t t') (h' : Extends k t' t'') : Extends k t t'' where
  stack := h'.stack.trans h.stack
  length := h'.length.trans h.length
  other j hj := (h'.other j hj).trans (h.other j hj)
  keeps name symbol hFound := h'.keeps name symbol (h.keeps name symbol hFound)

/-- A scope that is not open has no part in what is visible. -/
theorem lookupStruct_eq (h : Extends k t t') (hClosed : k ∉ t.stack) (name : String) :
    t'.lookupStruct name = t.lookupStruct name := by
  unfold SymbolTable.lookupStruct SymbolTable.lookup
  rw [h.stack]
  have hSame : ∀ j ∈ t.stack, (t'.scope j).lookup name = (t.scope j).lookup name := by
    intro j hj
    rw [h.other j (ne_of_mem_of_not_mem hj hClosed)]
  rw [findSome?_eq_of_forall₂ (List.forall₂_same.mpr hSame)]

/-- A scope may grow by symbols that are housed. -/
theorem anchored (h : Extends k t t') (hAnchored : t.Anchored g)
    (hAdded : ∀ name symbol, (t'.scope k).lookup name = some symbol →
      (t.scope k).lookup name = some symbol ∨ t.Housed g k symbol) : t'.Anchored g where
  outermost := h.stack ▸ hAnchored.outermost
  made j hj := by
    rw [h.length]
    exact hAnchored.made j (h.stack ▸ hj)
  structs j name symbol hj hFound := by
    -- both what is new and what was there are housed, as long as no scope is opened
    have hHoused : t.Housed g j symbol := by
      by_cases hjk : j = k
      · subst hjk
        exact (hAdded name symbol hFound).elim (hAnchored.structs j name symbol hj) id
      · rw [h.other j hjk] at hFound
        exact hAnchored.structs j name symbol hj hFound
    exact hHoused.mono (Nat.le_of_eq h.length.symm) fun i hi => .inl (h.stack ▸ hi)

end Extends

/-! ## Bindings that stay -/

/-- Every binding stays, and nothing is added to the fields of a struct of the scope `g`. -/
structure Grows (g : ScopeId) (t t' : SymbolTable) : Prop where
  keeps : ∀ k name symbol, (t.scope k).lookup name = some symbol →
    (t'.scope k).lookup name = some symbol
  fields : ∀ name struct inside, (t.scope g).lookup name = some struct →
    struct.meaning = .structDecl inside → t'.scope inside = t.scope inside

namespace Grows

/-- With the same scopes a table has grown by nothing. -/
theorem of_scopes (h : ∀ k, t'.scope k = t.scope k) : Grows g t t' where
  keeps k _ _ hFound := by rwa [h k]
  fields _ _ inside _ _ := h inside

/-- Growing twice is growing. -/
theorem trans (h : Grows g t t') (h' : Grows g t' t'') : Grows g t t'' where
  keeps k name symbol hFound := h'.keeps k name symbol (h.keeps k name symbol hFound)
  fields name struct inside hFound hMeaning := by
    rw [h'.fields name struct inside (h.keeps g name struct hFound) hMeaning,
      h.fields name struct inside hFound hMeaning]

end Grows

/-- Declarations in a scope that does not hold the fields of a struct that was there before. -/
theorem Grows.extends (h : Grows g t t') (h' : Extends k t' t'')
    (hOther : ∀ name struct inside, (t.scope g).lookup name = some struct →
      struct.meaning = .structDecl inside → inside ≠ k) : Grows g t t'' where
  keeps j name symbol hFound := by
    have hKept := h.keeps j name symbol hFound
    -- the scope that was extended keeps its bindings, all others are the same
    by_cases hj : j = k
    · subst hj
      exact h'.keeps name symbol hKept
    · rwa [h'.other j hj]
  fields name struct inside hFound hMeaning := by
    rw [h'.other inside (hOther name struct inside hFound hMeaning),
      h.fields name struct inside hFound hMeaning]

/-- The scope of a struct's fields. -/
theorem SymbolTable.Anchored.inside (h : t.Anchored g) {name : String} {struct : Symbol}
    {inside : ScopeId} (hFound : (t.scope g).lookup name = some struct)
    (hMeaning : struct.meaning = .structDecl inside) :
    g ≤ inside ∧ inside < t.store.length ∧ inside ∉ t.stack := by
  have hStruct : struct.isStructDecl = true := by
    simp [Symbol.isStructDecl, Symbol.category, hMeaning, Meaning.category]
  obtain ⟨-, found, hFields, hRest⟩ := h.structs g name struct (Nat.le_refl g) hFound hStruct
  rw [hMeaning] at hFields
  cases hFields
  exact hRest

/-- Declarations in an open scope leave the fields of structs as they are. -/
theorem Extends.grows (h : Extends k t t') (hAnchored : t.Anchored g) (hk : k ∈ t.stack) :
    Grows g t t' :=
  (Grows.of_scopes fun _ => rfl).extends h fun _ _ _ hFound hMeaning =>
    (ne_of_mem_of_not_mem hk (hAnchored.inside hFound hMeaning).2.2).symm

/-! ## What a declaration adds -/

/-- An analysis has put the symbol on the name, which did not carry it before. -/
def Ident.Gains (old new : Ident) (symbol : Symbol) : Prop :=
  old.symbol? ≠ some symbol ∧ new.symbol? = some symbol

/-- A name that stays as it is gains no symbol. -/
theorem Ident.not_gains (id : Ident) (symbol : Symbol) : ¬ Ident.Gains id id symbol :=
  fun h => h.1 h.2

/-- What the declaration of a name in the scope `k` changes: the scope may bind the name to the
symbol on it. What the name gains is bound, and `fits` holds of it. -/
structure Binds (k : ScopeId) (t t' : SymbolTable) (old new : Ident) (fits : Symbol → Prop) : Prop
    extends Extends k t t' where
  added : ∀ name symbol, (t'.scope k).lookup name = some symbol →
    (t.scope k).lookup name = some symbol ∨
      (new.name = name ∧ new.symbol? = some symbol ∧ fits symbol)
  gained : ∀ symbol, Ident.Gains old new symbol →
    (t'.scope k).lookup new.name = some symbol ∧ fits symbol

/-- What fits the symbols may be weakened. -/
theorem Binds.imp {old new : Ident} {fits fits' : Symbol → Prop} (h : Binds k t t' old new fits)
    (hFits : ∀ symbol, fits symbol → fits' symbol) : Binds k t t' old new fits' where
  toExtends := h.toExtends
  added name symbol hFound :=
    (h.added name symbol hFound).imp_right fun ⟨hName, hSymbol, hFit⟩ =>
      ⟨hName, hSymbol, hFits symbol hFit⟩
  gained symbol hGains := (h.gained symbol hGains).imp_right (hFits symbol)

/-- A declaration that is refused binds nothing. -/
theorem Binds.unchanged (k : ScopeId) (t : SymbolTable) (id : Ident) (fits : Symbol → Prop) :
    Binds k t t id id fits where
  toExtends := .refl k t
  added _ _ h := .inl h
  gained symbol hGains := absurd hGains (id.not_gains symbol)

/-- A declaration binds its name to a symbol with the given meaning. -/
theorem Declares.binds {id id' : Ident} {meaning : Meaning} (hk : k < t.store.length)
    (h : Declares k id meaning t id' t' errors) :
    Binds k t t' id id' fun symbol => symbol.meaning = meaning := by
  cases h with
  | taken => exact .unchanged k t id _
  | bound h =>
    exact
      { stack := (declareIn_eq_some h).2.1
        length := declareIn_length h
        other := fun _ hj => declareIn_scope_other h hj
        keeps := fun _ _ hFound => (lookup_declareIn hk h).mpr (.inl hFound)
        -- the new binding is the only one that was not there before
        added := fun name symbol hFound => by
          refine ((lookup_declareIn hk h).mp hFound).imp_right ?_
          rintro ⟨-, rfl, rfl⟩
          exact ⟨rfl, rfl, rfl⟩
        gained := fun symbol hGains => by
          obtain rfl := Option.some.inj hGains.2
          exact ⟨(lookup_declareIn hk h).mpr (.inr ⟨rfl, rfl, rfl⟩), rfl⟩ }

/-! ## Variables and fields -/

/-- The symbol that the struct name in the type carries. -/
def VarDecl.struct? (d : VarDecl) : Option Symbol :=
  match d.type with
  | .struct id => id.symbol?
  | .boolean | .integer | .void => none

/-- The symbol is not that of a struct; and if it is that of a struct variable, the type carries the
struct that is visible under the name it keeps. -/
def VarDecl.Fits (d : VarDecl) (t : SymbolTable) (symbol : Symbol) : Prop :=
  symbol.isStructDecl = false ∧ ∀ type, symbol.meaning = .structVar type →
    ∃ struct, d.struct? = some struct ∧ t.lookupStruct type = some struct

/-- A symbol with the meaning that its type gives fits the variable. -/
theorem TypeRef.Gives.fits {type type' : TypeRef} {meaning : Meaning} {d : VarDecl}
    {symbol : Symbol} (h : TypeRef.Gives t type type' meaning) (hType : d.type = type')
    (hMeaning : symbol.meaning = meaning) : d.Fits t symbol := by
  unfold VarDecl.Fits Symbol.isStructDecl Symbol.category VarDecl.struct?
  rw [hMeaning, hType]
  cases h with
  | boolean | integer => exact ⟨rfl, fun _ h => by cases h⟩
  | struct hStruct =>
    refine ⟨rfl, fun type h => ?_⟩
    cases h
    exact ⟨_, rfl, hStruct⟩

/-- A variable or a field is bound to a symbol that fits it. -/
theorem VarDecl.Outcome.binds {d d' : VarDecl} (hk : k < t.store.length)
    (h : d.Outcome t k d' t' errors) : Binds k t t' d.id d'.id (d'.Fits t) := by
  cases h with
  | @formal symbol hFound hFormal =>
    refine ⟨.refl k t, fun _ _ h => .inl h, fun found hGains => ?_⟩
    obtain rfl := Option.some.inj hGains.2
    -- what the name gains is the symbol of a formal, which has no struct type
    have hCategory : symbol.meaning.category = .formal := of_decide_eq_true hFormal
    refine ⟨hFound, ?_, fun type hMeaning => ?_⟩
    · simp [Symbol.isStructDecl, Symbol.category, hCategory]
    · rw [hMeaning] at hCategory
      cases hCategory
  | void | noStruct => exact .unchanged k t d.id _
  | typed _ hGives hDeclares =>
    exact (hDeclares.binds hk).imp fun _ hMeaning => hGives.fits rfl hMeaning

/-- Declarations in a scope that is not open do not change what fits. -/
theorem Extends.fits_iff (h : Extends k t t') (hClosed : k ∉ t.stack) (d : VarDecl)
    (symbol : Symbol) : d.Fits t' symbol ↔ d.Fits t symbol := by
  unfold VarDecl.Fits
  simp only [h.lookupStruct_eq hClosed]

/-- What declarations in a scope that is not open change. They all see the same structs. -/
structure BindsAll (k : ScopeId) (t t' : SymbolTable) (ds ds' : List VarDecl) : Prop
    extends Extends k t t' where
  added : ∀ name symbol, (t'.scope k).lookup name = some symbol →
    (t.scope k).lookup name = some symbol ∨
      ∃ d ∈ ds', d.id.name = name ∧ d.id.symbol? = some symbol ∧ d.Fits t symbol
  gained : List.Forall₂ (fun d d' => ∀ symbol, Ident.Gains d.id d'.id symbol → d'.Fits t symbol)
    ds ds'

/-- The fields of a struct are bound one by one. -/
theorem Outcomes.bindsAll {ds ds' : List VarDecl} (hk : k < t.store.length)
    (hClosed : k ∉ t.stack) (h : Outcomes k t ds t' ds' errors) : BindsAll k t t' ds ds' := by
  induction h with
  | nil t => exact ⟨.refl k t, fun _ _ h => .inl h, .nil⟩
  | @cons t t₁ t₂ d d' ds ds' errors errors' hHead _ ih =>
    have hBinds := hHead.binds hk
    -- the scope has been made and is closed, still
    have hRest := ih (hBinds.length ▸ hk) (hBinds.stack ▸ hClosed)
    -- what fits later would have fitted from the beginning
    have hFits := hBinds.fits_iff hClosed
    refine ⟨hBinds.toExtends.trans hRest.toExtends, fun name symbol hFound => ?_, .cons ?_ ?_⟩
    · rcases hRest.added name symbol hFound with hOld | ⟨e, he, hName, hSymbol, hFit⟩
      · rcases hBinds.added name symbol hOld with hFirst | ⟨hName, hSymbol, hFit⟩
        · exact .inl hFirst
        · exact .inr ⟨d', List.mem_cons_self, hName, hSymbol, hFit⟩
      · exact .inr ⟨e, List.mem_cons_of_mem d' he, hName, hSymbol, (hFits e symbol).mp hFit⟩
    · exact fun symbol hGains => (hBinds.gained symbol hGains).2
    · exact hRest.gained.imp fun _ e hGained symbol hGains =>
        (hFits e symbol).mp (hGained symbol hGains)

/-- In a scope that was empty, each binding is that of a declaration. -/
theorem BindsAll.carried {ds ds' : List VarDecl} (h : BindsAll k t t' ds ds')
    (hEmpty : t.scope k = {}) (hClosed : k ∉ t.stack) {name : String} {symbol : Symbol}
    (hFound : (t'.scope k).lookup name = some symbol) :
    ∃ d ∈ ds', d.id.name = name ∧ d.id.symbol? = some symbol ∧ d.Fits t' symbol := by
  rcases h.added name symbol hFound with hOld | ⟨d, hd, hName, hSymbol, hFit⟩
  · rw [hEmpty] at hOld
    cases hOld
  · exact ⟨d, hd, hName, hSymbol, (h.fits_iff hClosed d symbol).mpr hFit⟩

/-! ## Structs -/

/-- What the declaration of a struct changes: the global scope, by its name, and a new scope, in
which the fields are. -/
structure Builds (g : ScopeId) (t t' : SymbolTable) (s s' : StructDecl) : Prop where
  anchored : t'.Anchored g
  grows : Grows g t t'
  other : ∀ k, k ≠ g → k ≠ t.store.length → t'.scope k = t.scope k
  added : ∀ name symbol, (t'.scope g).lookup name = some symbol →
    (t.scope g).lookup name = some symbol ∨ (s'.id.name = name ∧ s'.id.symbol? = some symbol ∧
      symbol.meaning = .structDecl t.store.length)
  gained : ∀ symbol, Ident.Gains s.id s'.id symbol →
    (t'.scope g).lookup s'.id.name = some symbol ∧ symbol.meaning = .structDecl t.store.length
  inside : ∀ name symbol, (t'.scope t.store.length).lookup name = some symbol →
    ∃ f ∈ s'.fields, f.id.name = name ∧ f.id.symbol? = some symbol ∧ f.Fits t' symbol
  fields : List.Forall₂ (fun f f' => ∀ symbol, Ident.Gains f.id f'.id symbol → f'.Fits t' symbol)
    s.fields s'.fields

/-- The declaration of a struct builds its field table. -/
theorem Declares.builds {s : StructDecl} {id' : Ident} {fields' : List VarDecl}
    {t₁ t₂ : SymbolTable} {errors₁ errors₂ : List Diagnostic} (hAnchored : t.Anchored g)
    (hStack : t.stack = [g])
    (hName : Declares g s.id (.structDecl t.store.length) t.newScope.2 id' t₁ errors₁)
    (hFields : Outcomes t.store.length t₁ s.fields t₂ fields' errors₂) :
    Builds g t t₂ s ⟨id', fields'⟩ := by
  have hNew := hAnchored.newScope
  have hOther : t.store.length ≠ g := (Nat.ne_of_lt hAnchored.global_made).symm
  have hClosed : t.store.length ∉ t.newScope.2.stack := by
    rw [newScope_stack, hStack, List.mem_singleton]
    exact hOther
  -- the name of the struct, with the new scope in its symbol
  have hBinds := hName.binds hNew.global_made
  have hAnchored₁ : t₁.Anchored g := hBinds.anchored hNew fun name symbol hFound =>
    (hBinds.added name symbol hFound).imp_right fun ⟨_, _, hMeaning⟩ _ =>
      ⟨rfl, t.store.length, hMeaning, Nat.le_of_lt hAnchored.global_made, by simp, hClosed⟩
  have hGrows₁ : Grows g t t₁ :=
    (Grows.of_scopes (newScope_scope t)).trans (hBinds.grows hNew hNew.mem)
  -- the fields, in the new scope, which is empty before them and not open
  have hClosed₁ : t.store.length ∉ t₁.stack := hBinds.stack ▸ hClosed
  have hEmpty : t₁.scope t.store.length = {} := by
    rw [hBinds.other _ hOther, newScope_scope, scope_of_length_le (Nat.le_refl _)]
  have hAll := hFields.bindsAll (by rw [hBinds.length]; simp) hClosed₁
  have hGlobal : t₂.scope g = t₁.scope g := hAll.other g hOther.symm
  exact
    { anchored := hAll.anchored hAnchored₁ fun name symbol hFound => .inr fun hStruct => by
        obtain ⟨f, -, -, -, hFit⟩ := hAll.carried hEmpty hClosed₁ hFound
        rw [hFit.1] at hStruct
        cases hStruct
      grows := hGrows₁.extends hAll.toExtends fun _ _ _ hFound hMeaning =>
        Nat.ne_of_lt (hAnchored.inside hFound hMeaning).2.1
      other := fun k hg hk => by rw [hAll.other k hk, hBinds.other k hg, newScope_scope]
      added := fun name symbol hFound => by
        rw [hGlobal] at hFound
        rw [← newScope_scope t g]
        exact hBinds.added name symbol hFound
      gained := fun symbol hGains => by
        rw [hGlobal]
        exact hBinds.gained symbol hGains
      inside := fun name symbol hFound => hAll.carried hEmpty hClosed₁ hFound
      fields := hAll.gained.imp fun _ f hGained symbol hGains =>
        (hAll.fits_iff hClosed₁ f symbol).mpr (hGained symbol hGains) }

end NameResolution
