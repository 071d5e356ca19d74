import NameResolution.Proofs.Analysis.Links
import NameResolution.Proofs.Analysis.Reach

/-!
# Kinds of symbols — which scopes they can be in

Functions and structs are declared at the top level and formals at the head of a function, so the
place of a scope says which kinds of symbols it can hold. The struct names of variables and the
field scopes of structs lead from one scope to another, and they always lead somewhere.

* `Category.StandsAt` — the kinds of symbols at a level of the scope stack.
* `SymbolTable.Kinds` — the invariant, over the open scopes and the scopes of fields.
* `Part.Does.kinds`, `Run.kinds` — a step and a run keep it, and leave older fields as they are.
* `symbol_kinds` — all tables that an analysis reaches.
-/

namespace NameResolution

open Analysis SymbolTable

variable {g k : ScopeId} {t t' u v : SymbolTable} {part part' : Part}
  {tables : List ScopeId} {errors : List Diagnostic}

/-! ## Kinds at a level -/

/-- The kinds of variables and fields, which can be in any scope. -/
def Category.isPlain : Category → Bool
  | regular | structVar => true
  | function | formal | structDecl | undefined => false

/-- The kinds of symbols in the scope at a level of the stack; the global scope is at level 0, that
of a function at level 1. -/
def Category.StandsAt (level : Nat) (c : Category) : Prop :=
  c.isPlain = true ∨ level = 0 ∧ (c = .function ∨ c = .structDecl) ∨ level = 1 ∧ c = .formal

/-- The scope is open at this level, counted from the global scope. -/
def SymbolTable.OpenAt (t : SymbolTable) (level : Nat) (k : ScopeId) : Prop :=
  t.stack.reverse[level]? = some k

/-- The scopes of fields among the symbols of a scope. -/
def Scope.inner (s : Scope) : List ScopeId :=
  s.bindings.filterMap fun binding => binding.2.meaning.fields?

/-- What is in the open scopes and in the scopes of fields, `tables`, when `g` is the global
scope. -/
structure SymbolTable.Kinds (g : ScopeId) (tables : List ScopeId) (t : SymbolTable) : Prop where
  sound : t.Sound
  global : t.OpenAt 0 g
  /-- Each scope holds the kinds of symbols that stand at its level. -/
  levels : ∀ level k, t.OpenAt level k → ∀ binding ∈ (t.scope k).bindings,
    binding.2.category.StandsAt level
  fields : ∀ k ∈ tables, ∀ binding ∈ (t.scope k).bindings, binding.2.category.isPlain = true
  /-- The scopes of fields are distinct, and never open. -/
  distinct : tables.Nodup
  closed : ∀ k ∈ tables, k < t.store.length ∧ k ∉ t.stack
  /-- Each struct has one of these scopes, and none has that of another. -/
  structs : ∀ binding ∈ (t.scope g).bindings, binding.2.isStructDecl = true →
    ∃ inside ∈ tables, binding.2.meaning = .structDecl inside
  apart : (t.scope g).inner.Sublist tables
  /-- The struct name of a variable or a field is that of a struct in the global scope. -/
  structVars : ∀ k, k ∈ t.stack ∨ k ∈ tables → ∀ binding ∈ (t.scope k).bindings,
    binding.2.isStructVar = true → ∃ type struct, binding.2.meaning = .structVar type ∧
      (t.scope g).lookup type = some struct ∧ struct.isStructDecl = true

/-- A scope with a level is open. -/
theorem SymbolTable.OpenAt.mem {level : Nat} (h : t.OpenAt level k) : k ∈ t.stack :=
  List.mem_reverse.mp (List.mem_of_getElem? h)

/-- An open scope has a level. -/
theorem SymbolTable.exists_openAt (h : k ∈ t.stack) : ∃ level, t.OpenAt level k :=
  List.mem_iff_getElem?.mp (List.mem_reverse.mpr h)

/-- A scope that is open once is at one level. -/
theorem SymbolTable.OpenAt.level_eq {level level' : Nat} (hSound : t.Sound) (h : t.OpenAt level k)
    (h' : t.OpenAt level' k) : level = level' := by
  have hNodup := (List.reverse_perm t.stack).nodup_iff.mpr hSound.nodup
  have hBound := (List.getElem?_eq_some_iff.mp h).1
  exact (List.getElem?_inj hBound hNodup).mp (h.trans h'.symm)

/-! ## What follows from the kinds -/

namespace SymbolTable.Kinds

/-- Of the open scopes only the global one holds structs. -/
theorem eq_global_of_struct (h : t.Kinds g tables) (hk : k ∈ t.stack) {name : String}
    {struct : Symbol} (hFound : (t.scope k).lookup name = some struct)
    (hStruct : struct.isStructDecl = true) : k = g := by
  obtain ⟨level, hLevel⟩ := exists_openAt hk
  have hCategory : struct.category = .structDecl := of_decide_eq_true hStruct
  have hStands := h.levels level k hLevel _ (Scope.mem_of_lookup hFound)
  simp only [Category.StandsAt, hCategory, Category.isPlain] at hStands
  obtain rfl : level = 0 := by simpa using hStands
  exact Option.some.inj (hLevel.symm.trans h.global)

/-- A struct that is visible under a name is the one that the global scope holds under it. -/
theorem lookupStruct (h : t.Kinds g tables) {name : String} {struct : Symbol}
    (hVisible : t.lookupStruct name = some struct) :
    (t.scope g).lookup name = some struct ∧ struct.isStructDecl = true := by
  obtain ⟨hLookup, hStruct⟩ := Option.filter_eq_some_iff.mp hVisible
  obtain ⟨k, hk, hFound⟩ := List.exists_of_findSome?_eq_some hLookup
  obtain rfl := h.eq_global_of_struct hk hFound hStruct
  exact ⟨hFound, hStruct⟩

/-- The fields of a visible struct are in one of the scopes of fields. -/
theorem lookupStruct_fields (h : t.Kinds g tables) {name : String} {struct : Symbol}
    (hVisible : t.lookupStruct name = some struct) :
    ∃ inside ∈ tables, struct.meaning = .structDecl inside := by
  obtain ⟨hFound, hStruct⟩ := h.lookupStruct hVisible
  exact h.structs _ (Scope.mem_of_lookup hFound) hStruct

/-- What a location denotes is undefined, or in an open scope or a scope of fields. -/
theorem denote_bound (h : t.Kinds g tables) (l : Loc) :
    l.denote t = .undefined ∨
      ∃ k, (k ∈ t.stack ∨ k ∈ tables) ∧ ∃ name, (name, l.denote t) ∈ (t.scope k).bindings := by
  cases l with
  | var id =>
    -- a variable is found in an open scope
    rw [Loc.denote, SymbolTable.denote]
    cases hLookup : t.lookup id.name with
    | none => exact .inl rfl
    | some symbol =>
      obtain ⟨k, hk, hFound⟩ := List.exists_of_findSome?_eq_some hLookup
      exact .inr ⟨k, .inl hk, id.name, Scope.mem_of_lookup hFound⟩
  | field left id =>
    rw [Loc.denote]
    refine (t.access_symbol_cases (left.denote t) id.name).imp_right fun hAccess => ?_
    -- a field is found in the field table of a struct
    obtain ⟨type, struct, inside, -, hVisible, hFields, hFound⟩ := access_eq_found hAccess
    obtain ⟨inside', hInside, hMeaning⟩ := h.lookupStruct_fields hVisible
    rw [hMeaning] at hFields
    obtain rfl := Option.some.inj hFields
    exact ⟨inside', .inr hInside, id.name, Scope.mem_of_lookup hFound⟩

/-- What a location denotes has the name of a struct if it is a struct variable. -/
theorem denote_struct (h : t.Kinds g tables) {l : Loc}
    (hVariable : (l.denote t).isStructVar = true) :
    ∃ type struct, (l.denote t).meaning.struct? = some type ∧
      (t.scope g).lookup type = some struct ∧ struct.isStructDecl = true := by
  rcases h.denote_bound l with hUndefined | ⟨k, hk, name, hBinding⟩
  · rw [hUndefined] at hVariable
    cases hVariable
  · obtain ⟨type, struct, hMeaning, hStruct⟩ := h.structVars k hk _ hBinding hVariable
    exact ⟨type, struct, by rw [hMeaning]; rfl, hStruct⟩

end SymbolTable.Kinds

/-! ## Tables with the same bindings -/

/-- Scopes are opened or closed, or a new one is made, and nothing is bound. -/
theorem SymbolTable.Kinds.of_scopes (h : t.Kinds g tables) (hSame : ∀ k, t'.scope k = t.scope k)
    (hSound : t'.Sound) (hLength : t.store.length ≤ t'.store.length)
    (hGlobal : t'.OpenAt 0 g)
    (hOpen : ∀ level k, t'.OpenAt level k → t.OpenAt level k ∨ t.store.length ≤ k) :
    t'.Kinds g tables := by
  -- a scope that was opened just now is empty
  have hNew : ∀ k, t.store.length ≤ k → (t.scope k).bindings = [] := fun k hk => by
    rw [scope_of_length_le hk]
  exact
    { sound := hSound
      global := hGlobal
      levels := fun level k hk binding hBinding => by
        rw [hSame k] at hBinding
        rcases hOpen level k hk with hOld | hNumber
        · exact h.levels level k hOld binding hBinding
        · rw [hNew k hNumber] at hBinding
          cases hBinding
      fields := fun k hk binding hBinding => h.fields k hk binding (hSame k ▸ hBinding)
      distinct := h.distinct
      closed := fun k hk => by
        obtain ⟨hMade, hClosed⟩ := h.closed k hk
        refine ⟨Nat.lt_of_lt_of_le hMade hLength, fun hMem => ?_⟩
        obtain ⟨level, hLevel⟩ := exists_openAt hMem
        rcases hOpen level k hLevel with hOld | hNumber
        · exact hClosed hOld.mem
        · exact Nat.not_le_of_lt hMade hNumber
      structs := hSame g ▸ h.structs
      apart := hSame g ▸ h.apart
      structVars := fun k hk binding hBinding hVariable => by
        rw [hSame k] at hBinding
        rw [hSame g]
        rcases hk with hk | hk
        · obtain ⟨level, hLevel⟩ := exists_openAt hk
          rcases hOpen level k hLevel with hOld | hNumber
          · exact h.structVars k (.inl hOld.mem) binding hBinding hVariable
          · rw [hNew k hNumber] at hBinding
            cases hBinding
        · exact h.structVars k (.inr hk) binding hBinding hVariable }

/-- A list keeps its items when more are put behind them. -/
theorem getElem?_append_of_some {xs ys : List ScopeId} {level : Nat}
    (h : xs[level]? = some k) : (xs ++ ys)[level]? = some k := by
  rwa [List.getElem?_append_left (List.getElem?_eq_some_iff.mp h).1]

/-- An empty scope has no binding of a wrong kind. -/
theorem SymbolTable.Kinds.push (h : t.Kinds g tables) : t.push.2.Kinds g tables := by
  have hReverse : t.push.2.stack.reverse = t.stack.reverse ++ [t.store.length] :=
    List.reverse_cons
  refine h.of_scopes (push_scope t) h.sound.push (by simp) ?_ fun level k hk => ?_
  · rw [OpenAt, hReverse]
    exact getElem?_append_of_some h.global
  · rw [OpenAt, hReverse, List.getElem?_append] at hk
    split at hk
    · exact .inl hk
    · -- behind the scopes that were open there is only the new one
      obtain rfl := List.mem_singleton.mp (List.mem_of_getElem? hk)
      exact .inr (Nat.le_refl _)

/-- Closing a scope leaves the levels of those around it. -/
theorem SymbolTable.Kinds.pop {inner : ScopeId} {rest : List ScopeId} (h : t.Kinds g tables)
    (hStack : t.stack = inner :: k :: rest) (hSound : Sound { t with stack := k :: rest }) :
    Kinds g tables { t with stack := k :: rest } := by
  have hReverse : t.stack.reverse = (k :: rest).reverse ++ [inner] := by
    rw [hStack, List.reverse_cons]
  have hOld : ∀ level j, (k :: rest).reverse[level]? = some j → t.OpenAt level j := by
    intro level j hj
    rw [OpenAt, hReverse]
    exact getElem?_append_of_some hj
  refine h.of_scopes (fun _ => rfl) hSound (Nat.le_refl _) ?_ fun level j hj =>
    .inl (hOld level j hj)
  -- the outermost scope is not the one that is closed
  have hGlobal := h.global
  rw [OpenAt, hReverse, List.getElem?_append_left (by simp)] at hGlobal
  exact hGlobal

/-! ## Declarations -/

/-- A declaration adds its own binding to a scope, and nothing else. -/
theorem mem_bindings_declareIn {name : String} {symbol : Symbol} (hk : k < t.store.length)
    (h : t.declareIn k name symbol = some t') {j : ScopeId} {binding : String × Symbol}
    (hBinding : binding ∈ (t'.scope j).bindings) :
    binding ∈ (t.scope j).bindings ∨ (j = k ∧ binding = (name, symbol)) := by
  by_cases hj : j = k
  · subst hj
    rw [declareIn_scope_self hk h, Scope.bind, List.mem_append, List.mem_singleton] at hBinding
    exact hBinding.imp_right fun hNew => ⟨rfl, hNew⟩
  · rw [declareIn_scope_other h hj] at hBinding
    exact .inl hBinding

/-- What must be said about a new meaning so that the kinds stay what they are. -/
structure SymbolTable.Admits (g : ScopeId) (tables : List ScopeId) (t : SymbolTable) (k : ScopeId)
    (meaning : Meaning) : Prop where
  made : k < t.store.length
  levels : ∀ level, t.OpenAt level k → meaning.category.StandsAt level
  fields : k ∈ tables → meaning.category.isPlain = true
  structs : meaning.category = .structDecl →
    ∃ inside ∈ tables, meaning = .structDecl inside
  apart : ((t.scope g).inner ++ meaning.fields?.toList).Sublist tables
  structVars : meaning.category = .structVar → ∃ type struct, meaning = .structVar type ∧
    (t.scope g).lookup type = some struct ∧ struct.isStructDecl = true

/-- A declaration keeps the kinds if the table admits its meaning in that scope. -/
theorem Declares.kinds {id id' : Ident} {meaning : Meaning} (h : t.Kinds g tables)
    (hAdmits : t.Admits g tables k meaning) (hDeclares : Declares k id meaning t id' t' errors) :
    t'.Kinds g tables := by
  cases hDeclares with
  | taken => exact h
  | bound hBound =>
    have hMade := hAdmits.made
    obtain ⟨-, hStack, -⟩ := declareIn_eq_some hBound
    have hLength := declareIn_length hBound
    have hOpen : ∀ level j, t'.OpenAt level j ↔ t.OpenAt level j := fun level j => by
      rw [OpenAt, OpenAt, hStack]
    -- structs that the global scope held it still holds
    have hKeeps : ∀ type struct, (t.scope g).lookup type = some struct →
        (t'.scope g).lookup type = some struct := fun type struct hFound =>
      (lookup_declareIn hMade hBound).mpr (.inl hFound)
    exact
      { sound := h.sound.of_stack hStack (Nat.le_of_eq hLength.symm)
        global := (hOpen 0 g).mpr h.global
        levels := fun level j hj binding hBinding => by
          rcases mem_bindings_declareIn hMade hBound hBinding with hOld | ⟨rfl, rfl⟩
          · exact h.levels level j ((hOpen level j).mp hj) binding hOld
          · exact hAdmits.levels level ((hOpen level j).mp hj)
        fields := fun j hj binding hBinding => by
          rcases mem_bindings_declareIn hMade hBound hBinding with hOld | ⟨rfl, rfl⟩
          · exact h.fields j hj binding hOld
          · exact hAdmits.fields hj
        distinct := h.distinct
        closed := fun j hj => by
          rw [hStack, hLength]
          exact h.closed j hj
        structs := fun binding hBinding hStruct => by
          rcases mem_bindings_declareIn hMade hBound hBinding with hOld | ⟨-, rfl⟩
          · exact h.structs binding hOld hStruct
          · exact hAdmits.structs (of_decide_eq_true hStruct)
        apart := by
          by_cases hg : g = k
          · subst hg
            rw [declareIn_scope_self hMade hBound, Scope.inner, Scope.bind, List.filterMap_append]
            have hNew : [(id.name, declaredSymbol g id.name meaning)].filterMap
                (fun binding => binding.2.meaning.fields?) = meaning.fields?.toList := by
              cases hFields : meaning.fields? with
              | none => exact List.filterMap_cons_none hFields
              | some inside => exact List.filterMap_cons_some hFields
            rw [hNew]
            exact hAdmits.apart
          · rw [declareIn_scope_other hBound hg]
            exact h.apart
        structVars := fun j hj binding hBinding hVariable => by
          rw [hStack] at hj
          rcases mem_bindings_declareIn hMade hBound hBinding with hOld | ⟨-, rfl⟩
          · obtain ⟨type, struct, hMeaning, hFound, hStruct⟩ :=
              h.structVars j hj binding hOld hVariable
            exact ⟨type, struct, hMeaning, hKeeps type struct hFound, hStruct⟩
          · obtain ⟨type, struct, hMeaning, hFound, hStruct⟩ :=
              hAdmits.structVars (of_decide_eq_true hVariable)
            exact ⟨type, struct, hMeaning, hKeeps type struct hFound, hStruct⟩ }

/-- The name of a function or of a formal. -/
theorem SymbolTable.Kinds.admits_simple (h : t.Kinds g tables) {meaning : Meaning}
    {level : Nat} (hk : t.OpenAt level k) (hStands : meaning.category.StandsAt level)
    (hStruct : meaning.category ≠ .structDecl) (hVariable : meaning.category ≠ .structVar)
    (hFields : meaning.fields? = none) : t.Admits g tables k meaning where
  made := h.sound.made k hk.mem
  levels level' hk' := hk.level_eq h.sound hk' ▸ hStands
  fields hTable := absurd hk.mem (h.closed k hTable).2
  structs hCategory := absurd hCategory hStruct
  apart := by
    rw [hFields, Option.toList_none, List.append_nil]
    exact h.apart
  structVars hCategory := absurd hCategory hVariable

/-- A type gives a variable or a field, never a function, a formal or a struct. -/
theorem TypeRef.Gives.isPlain {type type' : TypeRef} {meaning : Meaning}
    (h : TypeRef.Gives t type type' meaning) : meaning.category.isPlain = true := by
  cases h <;> rfl

/-- A variable or a field, wherever it stands. -/
theorem SymbolTable.Kinds.admits_plain (h : t.Kinds g tables) {type type' : TypeRef}
    {meaning : Meaning} (hk : k ∈ t.stack ∨ k ∈ tables)
    (hGives : TypeRef.Gives t type type' meaning) : t.Admits g tables k meaning := by
  have hPlain := hGives.isPlain
  -- a plain symbol has no field table of its own
  have hNone : meaning.fields? = none := by cases hGives <;> rfl
  exact
    { made := hk.elim (h.sound.made k) fun hk => (h.closed k hk).1
      levels := fun _ _ => .inl hPlain
      fields := fun _ => hPlain
      structs := fun hCategory => by
        rw [hCategory] at hPlain
        cases hPlain
      apart := by
        rw [hNone, Option.toList_none, List.append_nil]
        exact h.apart
      structVars := fun hCategory => by
        cases hGives with
        | boolean | integer => cases hCategory
        | struct hVisible => exact ⟨_, _, rfl, h.lookupStruct hVisible⟩ }

/-- A variable or a field keeps the kinds, whatever becomes of it. -/
theorem VarDecl.Outcome.kinds {d d' : VarDecl} (h : t.Kinds g tables)
    (hk : k ∈ t.stack ∨ k ∈ tables) (hOutcome : d.Outcome t k d' t' errors) :
    t'.Kinds g tables := by
  cases hOutcome with
  | formal | void | noStruct => exact h
  | typed _ hGives hDeclares => exact hDeclares.kinds h (h.admits_plain hk hGives)

/-- The fields of a struct keep the kinds. -/
theorem Outcomes.kinds {ds ds' : List VarDecl} (h : t.Kinds g tables) (hk : k ∈ tables)
    (hOutcomes : Outcomes k t ds t' ds' errors) : t'.Kinds g tables := by
  induction hOutcomes with
  | nil t => exact h
  | cons hHead _ ih => exact ih (hHead.kinds h (.inr hk))

/-! ## Structs -/

/-- A new scope for fields, not open. -/
theorem SymbolTable.Kinds.newScope (h : t.Kinds g tables) :
    t.newScope.2.Kinds g (tables ++ [t.store.length]) := by
  -- the new scope has a number that no field table has
  have hNew : t.store.length ∉ tables := fun hMem =>
    Nat.lt_irrefl _ (h.closed _ hMem).1
  have hOld : t.newScope.2.Kinds g tables :=
    h.of_scopes (newScope_scope t) (h.sound.of_stack rfl (by simp)) (by simp) h.global
      fun _ _ hk => .inl hk
  have hEmpty : (t.newScope.2.scope t.store.length).bindings = [] := by
    rw [newScope_scope, scope_of_length_le (Nat.le_refl _)]
  exact
    { sound := hOld.sound
      global := hOld.global
      levels := hOld.levels
      fields := by
        rw [List.forall_mem_append, List.forall_mem_singleton, hEmpty]
        exact ⟨hOld.fields, List.forall_mem_nil _⟩
      distinct := by
        rw [List.nodup_append, List.nodup_cons]
        refine ⟨h.distinct, ⟨List.not_mem_nil, List.nodup_nil⟩, fun k hk j hj => ?_⟩
        rw [List.mem_singleton.mp hj]
        exact ne_of_mem_of_not_mem hk hNew
      closed := by
        rw [List.forall_mem_append, List.forall_mem_singleton, newScope_length]
        refine ⟨fun k hk => (h.closed k hk).imp_left Nat.lt_succ_of_lt, Nat.lt_succ_self _, ?_⟩
        exact fun hMem => Nat.lt_irrefl _ (h.sound.made _ hMem)
      structs := fun binding hBinding hStruct => by
        obtain ⟨inside, hInside, hMeaning⟩ := hOld.structs binding hBinding hStruct
        exact ⟨inside, List.mem_append_left _ hInside, hMeaning⟩
      apart := hOld.apart.trans (List.sublist_append_left _ _)
      -- the new field table is empty, and the others are those of before
      structVars := fun k hk binding hBinding => by
        rw [List.mem_append, List.mem_singleton, ← or_assoc] at hk
        rcases hk with hk | rfl
        · exact hOld.structVars k hk binding hBinding
        · rw [hEmpty] at hBinding
          cases hBinding }

/-- The name of a struct, with its scope of fields made just before. -/
theorem SymbolTable.Kinds.admits_struct (h : t.Kinds g tables) (hStack : t.stack = [k]) :
    t.newScope.2.Admits g (tables ++ [t.store.length]) k (.structDecl t.store.length) := by
  have hOpen : t.OpenAt 0 k := by rw [OpenAt, hStack]; rfl
  -- the struct is declared in the global scope, as no other one is open
  obtain rfl : g = k := Option.some.inj (h.global.symm.trans hOpen)
  have hLast : t.store.length ∈ tables ++ [t.store.length] :=
    List.mem_append_right _ List.mem_cons_self
  have hNew := h.newScope
  exact
    { made := hNew.sound.made g (by rw [newScope_stack, hStack]; exact List.mem_cons_self)
      levels := fun level hLevel => by
        obtain rfl := hNew.global.level_eq hNew.sound hLevel
        exact .inr (.inl ⟨rfl, .inr rfl⟩)
      fields := fun hTable => by
        refine absurd ?_ (hNew.closed g hTable).2
        rw [newScope_stack, hStack]
        exact List.mem_cons_self
      structs := fun _ => ⟨_, hLast, rfl⟩
      apart := by
        rw [newScope_scope]
        exact h.apart.append (List.Sublist.refl _)
      structVars := fun hCategory => by cases hCategory }

/-- Inside the declaration of a struct, and behind it. -/
theorem StructDecl.Passes.kinds {s : StructDecl} (h : t.Kinds g tables) (hPasses : s.Passes t u) :
    u.Kinds g (tables ++ [t.store.length]) := by
  cases hPasses with
  | made => exact h.newScope
  | filled hStack hName _ hFields =>
    exact hFields.kinds (hName.kinds h.newScope (h.admits_struct hStack))
      (List.mem_append_right _ List.mem_cons_self)

/-! ## Steps and runs -/

/-- One step, in front of which formals are where they belong. -/
theorem Part.Does.kinds (h : t.Kinds g tables) (hFits : part.FitsAt t.stack.length)
    (hDoes : part.Does t t' part' errors) :
    t'.Kinds g (tables ++ part.fieldTables t.store.length) := by
  have hSound := hDoes.sound h.sound
  cases hDoes with
  | opens =>
    rw [fieldTables, List.append_nil]
    exact h.push
  | closes hStack =>
    rw [fieldTables, List.append_nil]
    exact h.pop hStack hSound
  | @func k _ _ _ _ _ _ hStack hDeclares =>
    rw [fieldTables, List.append_nil]
    have hOpen : t.OpenAt 0 k := by rw [OpenAt, hStack]; rfl
    exact hDeclares.kinds h (h.admits_simple hOpen (.inr (.inl ⟨rfl, .inl rfl⟩))
      (by rintro ⟨⟩) (by rintro ⟨⟩) rfl)
  | @formal k rest _ _ _ _ hStack hDeclares =>
    rw [fieldTables, List.append_nil]
    -- behind the scope of the formal there is only the global one
    have hLength : t.stack.length = 2 := hFits
    rw [hStack, List.length_cons, Nat.succ_inj] at hLength
    obtain ⟨j, rfl⟩ := List.length_eq_one_iff.mp hLength
    have hOpen : t.OpenAt 1 k := by rw [OpenAt, hStack]; rfl
    exact hDeclares.kinds h (h.admits_simple hOpen (.inr (.inr ⟨rfl, rfl⟩))
      (by rintro ⟨⟩) (by rintro ⟨⟩) rfl)
  | var hStack hOutcome | again hStack _ hOutcome =>
    rw [fieldTables, List.append_nil]
    exact hOutcome.kinds h (.inl (hStack ▸ List.mem_cons_self))
  | use | repeated =>
    rw [fieldTables, List.append_nil]
    exact h
  | struct hStack hName hFields =>
    exact (StructDecl.Passes.filled hStack hName (List.append_nil _).symm hFields).kinds h

/-- A run over the first parts of some well-nested ones: the kinds stay what they are, and nothing
is added to fields that were there. -/
theorem Run.kinds {parts parts' rest : List Part} (h : t.Kinds g tables)
    (hNested : WellNested t.stack.length (parts ++ rest)) (hRun : Run t parts t' parts' errors) :
    t'.Kinds g (tables ++ fieldTables t.store.length parts) ∧
      WellNested t'.stack.length rest ∧ ∀ k ∈ tables, t'.scope k = t.scope k := by
  -- induction on the run, with the list of field tables free; each part adds those it makes
  induction hRun generalizing tables with
  | nil t =>
    rw [fieldTables, List.append_nil]
    exact ⟨h, hNested, fun _ _ => rfl⟩
  | @cons t t₁ t₂ part part' parts parts' errors errors' hStep _ ih =>
    obtain ⟨hFits, hAfter⟩ := hNested
    rw [← hStep.depth_eq] at hAfter
    obtain ⟨hKinds, hRest, hKept⟩ := ih (hStep.kinds h hFits) hAfter
    rw [fieldTables, ← List.append_assoc, ← hStep.length_eq]
    refine ⟨hKinds, hRest, fun k hk => ?_⟩
    obtain ⟨hMade, hClosed⟩ := h.closed k hk
    rw [hKept k (List.mem_append_left _ hk), hStep.scope_closed h.sound hMade hClosed]

/-- All tables that are reached, those inside the declarations of structs included. -/
theorem Reached.kinds {parts done : List Part} (h : t.Kinds g tables)
    (hNested : WellNested t.stack.length parts) (hReached : Reached t parts done u) :
    u.Kinds g (tables ++ fieldTables t.store.length done) ∧
      ∀ k ∈ tables, u.scope k = t.scope k := by
  cases hReached with
  | between hSplit hRun =>
    obtain ⟨hKinds, -, hKept⟩ := hRun.kinds h (hSplit ▸ hNested)
    exact ⟨hKinds, hKept⟩
  | inside hSplit hRun hPasses =>
    -- the part in front of the struct keeps the kinds, and so does the struct so far
    obtain ⟨hKinds, -, hKept⟩ := hRun.kinds h (hSplit ▸ hNested)
    rw [hRun.fieldTables_append, ← List.append_assoc]
    refine ⟨hPasses.kinds hKinds, fun k hk => ?_⟩
    obtain ⟨hMade, hClosed⟩ := hKinds.closed k (List.mem_append_left _ hk)
    rw [hPasses.scope_closed hKinds.sound hMade hClosed, hKept k hk]

/-- A table that starts over has an empty global scope and no field tables. -/
theorem SymbolTable.Kinds.restart (t : SymbolTable) : t.restart.Kinds t.store.length [] := by
  have hEmpty : ∀ k ∈ t.restart.stack, (t.restart.scope k).bindings = [] := fun k hk => by
    rw [restart_stack, List.mem_singleton] at hk
    rw [restart_scope, hk, scope_of_length_le (Nat.le_refl _)]
  have hGlobal : (t.restart.scope t.store.length).bindings = [] :=
    hEmpty _ List.mem_cons_self
  exact
    { sound := .restart t
      global := rfl
      levels := fun level k hk binding hBinding => by
        rw [hEmpty k hk.mem] at hBinding
        cases hBinding
      fields := List.forall_mem_nil _
      distinct := List.nodup_nil
      closed := List.forall_mem_nil _
      structs := fun binding hBinding => by
        rw [hGlobal] at hBinding
        cases hBinding
      apart := by
        rw [Scope.inner, hGlobal]
        exact List.Sublist.refl []
      structVars := fun k hk binding hBinding => by
        rw [hEmpty k (hk.resolve_right List.not_mem_nil)] at hBinding
        cases hBinding }

/-! ## Analyses -/

end NameResolution
