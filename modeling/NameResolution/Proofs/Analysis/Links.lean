import NameResolution.Proofs.Analysis.Settled
import NameResolution.Proofs.Analysis.Structs

/-!
# Links — a field access leads to the struct of its variable

A variable of a struct type keeps the name of the struct only, and each access looks this name up
again, wherever it stands. That the struct found there is the one that the declaration of the
variable has found rests on two invariants of an analysis: the table is anchored, and it is covered
by the declarations walked so far.

* `SymbolTable.Covered` — struct variables and structs are carried by declarations.
* `Part.Linked` — what a step has put on its own part.
* `accesses_follow_structs` — the links of all field accesses of a program.
-/

namespace NameResolution

open SymbolTable

variable {g k : ScopeId} {t t' t'' : SymbolTable} {errors : List Diagnostic}

/-! ## Declarations and what they carry -/

/-- If the symbol is that of a struct variable, the type carries the struct that the global scope
holds under the name that the symbol keeps. -/
def VarDecl.Linked (d : VarDecl) (g : ScopeId) (t : SymbolTable) (symbol : Symbol) : Prop :=
  ∀ type, symbol.meaning = .structVar type →
    ∃ struct, d.struct? = some struct ∧ (t.scope g).lookup type = some struct

/-- A link to a struct is kept when the global scope grows. -/
theorem VarDecl.Linked.mono {d : VarDecl} {symbol : Symbol} (h : d.Linked g t symbol)
    (hKeeps : ∀ name symbol, (t.scope g).lookup name = some symbol →
      (t'.scope g).lookup name = some symbol) : d.Linked g t' symbol := by
  intro type hMeaning
  obtain ⟨struct, hStruct, hFound⟩ := h type hMeaning
  exact ⟨struct, hStruct, hKeeps type struct hFound⟩

/-- What is visible under the name of a struct is what the global scope holds. -/
theorem VarDecl.Fits.linked {d : VarDecl} {symbol : Symbol} (h : d.Fits t symbol)
    (hAnchored : t.Anchored g) : d.Linked g t symbol := by
  intro type hMeaning
  obtain ⟨struct, hStruct, hVisible⟩ := h.2 type hMeaning
  exact ⟨struct, hStruct, hAnchored.lookupStruct hVisible⟩

/-- The struct has a field that carries the symbol under this name. -/
def StructDecl.Declares (s : StructDecl) (name : String) (symbol : Symbol) : Prop :=
  ∃ f ∈ s.fields, f.id.name = name ∧ f.id.symbol? = some symbol

/-- Whatever the scope binds is carried by a field of the struct. -/
def StructDecl.Fills (s : StructDecl) (scope : Scope) : Prop :=
  ∀ name symbol, scope.lookup name = some symbol → s.Declares name symbol

/-- The scope `g` holds the symbol under the name of the struct, and its fields are those of the
struct. -/
def StructDecl.Linked (s : StructDecl) (g : ScopeId) (t : SymbolTable) (struct : Symbol) : Prop :=
  (t.scope g).lookup s.id.name = some struct ∧
    ∃ inside, struct.meaning = .structDecl inside ∧ s.Fills (t.scope inside)

/-- A link to a field table is kept when the table grows. -/
theorem StructDecl.Linked.mono {s : StructDecl} {struct : Symbol} (h : s.Linked g t struct)
    (hGrows : Grows g t t') : s.Linked g t' struct := by
  obtain ⟨hBound, inside, hMeaning, hFills⟩ := h
  refine ⟨hGrows.keeps g _ _ hBound, inside, hMeaning, ?_⟩
  rwa [hGrows.fields _ struct inside hBound hMeaning]

/-- The declaration of a struct fills its field table. -/
theorem Builds.fills {s s' : StructDecl} (h : Builds g t t' s s') :
    s'.Fills (t'.scope t.store.length) := by
  intro name symbol hFound
  obtain ⟨f, hf, hName, hSymbol, -⟩ := h.inside name symbol hFound
  exact ⟨f, hf, hName, hSymbol⟩

/-! ## Accesses under a table -/

/-- The field `name` of `left` is found from scope to scope: the variable in a scope from `g` on,
its struct in `g`, and the field in the scope of that struct. -/
def SymbolTable.Follows (g : ScopeId) (t : SymbolTable) (left : Loc) (name : String)
    (symbol : Symbol) : Prop :=
  ∃ k owner type struct inside, g ≤ k ∧ left.last.symbol? = some owner ∧
    (t.scope k).lookup left.last.name = some owner ∧ owner.meaning = .structVar type ∧
    (t.scope g).lookup type = some struct ∧ struct.meaning = .structDecl inside ∧
    (t.scope inside).lookup name = some symbol

/-- What the accesses carry has been found. -/
def SymbolTable.FollowsAll (g : ScopeId) (t : SymbolTable) (accesses : List (Loc × Ident)) : Prop :=
  ∀ access ∈ accesses, ∀ symbol, access.2.symbol? = some symbol → symbol ≠ .undefined →
    t.Follows g access.1 access.2.name symbol

/-- A chain that is followed stays so when the table grows. -/
theorem SymbolTable.Follows.mono {left : Loc} {name : String} {symbol : Symbol}
    (h : t.Follows g left name symbol) (hGrows : Grows g t t') :
    t'.Follows g left name symbol := by
  obtain ⟨k, owner, type, struct, inside, hBase, hLeft, hOwner, hType, hStruct, hInside,
    hField⟩ := h
  exact ⟨k, owner, type, struct, inside, hBase, hLeft, hGrows.keeps _ _ _ hOwner, hType,
    hGrows.keeps _ _ _ hStruct, hInside, hGrows.keeps _ _ _ hField⟩

/-- Chains that are followed stay so when the table grows. -/
theorem SymbolTable.FollowsAll.mono {accesses : List (Loc × Ident)}
    (h : t.FollowsAll g accesses) (hGrows : Grows g t t') : t'.FollowsAll g accesses :=
  fun access hAccess symbol hSymbol hDefined =>
    (h access hAccess symbol hSymbol hDefined).mono hGrows

/-- Only a struct has a field table. -/
theorem Meaning.eq_structDecl {meaning : Meaning} {inside : ScopeId}
    (h : meaning.fields? = some inside) : meaning = .structDecl inside := by
  cases meaning <;> cases h
  rfl

/-- Only a struct variable names a struct. -/
theorem Meaning.eq_structVar {meaning : Meaning} {type : String}
    (h : meaning.struct? = some type) : meaning = .structVar type := by
  cases meaning <;> cases h
  rfl

/-- A symbol with that meaning is a struct variable. -/
theorem Symbol.isStructVar_of_meaning {symbol : Symbol} {type : String}
    (h : symbol.meaning = .structVar type) : symbol.isStructVar = true := by
  rw [isStructVar, category, h]
  rfl

/-- A field that is found, with its struct in the global scope. -/
theorem SymbolTable.Anchored.access_found (hAnchored : t.Anchored g) {left symbol : Symbol}
    {field : String} (h : t.access left field = .found symbol) :
    ∃ type struct inside, left.meaning = .structVar type ∧
      (t.scope g).lookup type = some struct ∧ struct.meaning = .structDecl inside ∧ g ≤ inside ∧
      (t.scope inside).lookup field = some symbol := by
  obtain ⟨type, struct, inside, hType, hVisible, hFields, hFound⟩ := access_eq_found h
  have hStruct := hAnchored.lookupStruct hVisible
  have hInside := Meaning.eq_structDecl hFields
  exact ⟨type, struct, inside, Meaning.eq_structVar hType, hStruct, hInside,
    (hAnchored.inside hStruct hInside).1, hFound⟩

/-- What a location denotes is bound to its last name in some scope. -/
theorem Loc.denote_bound (hAnchored : t.Anchored g) (l : Loc) (h : l.denote t ≠ .undefined) :
    ∃ k, g ≤ k ∧ (t.scope k).lookup l.last.name = some (l.denote t) := by
  cases l with
  | var id =>
    rw [Loc.denote, SymbolTable.denote] at h ⊢
    cases hFound : t.lookup id.name with
    | none =>
      rw [hFound] at h
      exact absurd rfl h
    | some symbol =>
      -- a variable is bound in an open scope
      obtain ⟨k, hk, hBound⟩ := List.exists_of_findSome?_eq_some hFound
      exact ⟨k, (hAnchored.made k hk).1, hBound⟩
  | field left id =>
    rw [Loc.denote] at h ⊢
    have hAccess := (t.access_symbol_cases (left.denote t) id.name).resolve_left h
    -- a field is bound in the field table of a struct
    obtain ⟨type, struct, inside, -, -, -, hBase, hFound⟩ := hAnchored.access_found hAccess
    exact ⟨inside, hBase, hFound⟩

/-- The chain of a location is followed from its root to its last field. -/
theorem Loc.annotate_follows (hAnchored : t.Anchored g) (l : Loc) :
    t.FollowsAll g (l.annotate t).accesses := by
  unfold FollowsAll
  induction l with
  | var id => exact List.forall_mem_nil _
  | field left id ih =>
    rw [Loc.annotate, Loc.accesses, List.forall_mem_append, List.forall_mem_singleton]
    refine ⟨ih, fun symbol hSymbol hDefined => ?_⟩
    -- the field carries what the access denotes
    obtain rfl : (t.access (left.denote t) id.name).symbol = symbol := Option.some.inj hSymbol
    have hAccess := (t.access_symbol_cases (left.denote t) id.name).resolve_left hDefined
    obtain ⟨type, struct, inside, hType, hStruct, hInside, -, hField⟩ :=
      hAnchored.access_found hAccess
    -- the undefined symbol is not that of a struct variable
    have hLeft : left.denote t ≠ .undefined := by
      intro h
      rw [h] at hType
      cases hType
    obtain ⟨k, hBase, hBound⟩ := left.denote_bound hAnchored hLeft
    refine ⟨k, left.denote t, type, struct, inside, hBase, ?_, ?_, hType, hStruct, hInside, hField⟩
    · rw [Loc.last_annotate]
      rfl
    · rw [Loc.last_annotate]
      exact hBound

/-! ## One step -/

/-- What a step has put on its part agrees with the table. -/
structure Part.Linked (g : ScopeId) (t : SymbolTable) (part part' : Part) : Prop where
  vars : List.Forall₂ (fun d d' => ∀ symbol, Ident.Gains d.id d'.id symbol →
    d'.Linked g t symbol) part.varDecls part'.varDecls
  structs : List.Forall₂ (fun s s' => ∀ struct, Ident.Gains s.id s'.id struct →
    s'.Linked g t struct) part.structs part'.structs

/-- A part that is linked stays so when the table grows. -/
theorem Part.Linked.mono {part part' : Part} (h : part.Linked g t part') (hGrows : Grows g t t') :
    part.Linked g t' part' where
  vars := h.vars.imp fun _ _ hGained symbol hGains =>
    (hGained symbol hGains).mono (hGrows.keeps g)
  structs := h.structs.imp fun _ _ hGained struct hGains => (hGained struct hGains).mono hGrows

/-- What a step leads to: the table is anchored still, has grown, and what is new in it is carried
by the part of the step. -/
structure Advances (g : ScopeId) (t t' : SymbolTable) (part part' : Part) : Prop where
  anchored : t'.Anchored g
  grows : Grows g t t'
  -- a struct variable is an old one or one that the step declares
  vars : ∀ k name symbol, g ≤ k → (t'.scope k).lookup name = some symbol →
    symbol.isStructVar = true → (t.scope k).lookup name = some symbol ∨
      ∃ d ∈ part'.varDecls, d.id.symbol? = some symbol ∧ d.Linked g t' symbol
  -- so is a struct in the global scope
  structs : ∀ name struct inside, (t'.scope g).lookup name = some struct →
    struct.meaning = .structDecl inside → (t.scope g).lookup name = some struct ∨
      ∃ s ∈ part'.structs, s.id.symbol? = some struct ∧ s.Fills (t'.scope inside)
  accesses : t'.FollowsAll g part'.accesses
  linked : part.Linked g t' part'

variable {part part' : Part}

/-- A step that binds nothing. -/
theorem Advances.of_scopes (hAnchored : t'.Anchored g) (hSame : ∀ k, t'.scope k = t.scope k)
    (hAccesses : t'.FollowsAll g part'.accesses) (hLinked : part.Linked g t' part') :
    Advances g t t' part part' where
  anchored := hAnchored
  grows := .of_scopes hSame
  vars k _ _ _ hFound _ := .inl (hSame k ▸ hFound)
  structs _ _ _ hFound _ := .inl (hSame g ▸ hFound)
  accesses := hAccesses
  linked := hLinked

/-- A step that declares a name in an open scope, and no struct. -/
theorem Binds.advances {old new : Ident} {fits : Symbol → Prop} (h : Binds k t t' old new fits)
    (hAnchored : t.Anchored g) (hk : k ∈ t.stack)
    (hNoStruct : ∀ symbol, fits symbol → symbol.isStructDecl = false)
    (hCarried : ∀ symbol, fits symbol → new.symbol? = some symbol → symbol.isStructVar = true →
      ∃ d ∈ part'.varDecls, d.id.symbol? = some symbol ∧ d.Linked g t' symbol)
    (hAccesses : part'.accesses = []) (hLinked : part.Linked g t' part') :
    Advances g t t' part part' where
  anchored := h.anchored hAnchored fun name symbol hFound =>
    (h.added name symbol hFound).imp_right fun ⟨_, _, hFit⟩ hStruct => by
      rw [hNoStruct symbol hFit] at hStruct
      cases hStruct
  grows := h.grows hAnchored hk
  vars j name symbol _ hFound hVariable := by
    -- in the scope of the declaration a symbol is an old one or the new one, elsewhere it is old
    by_cases hj : j = k
    · subst hj
      exact (h.added name symbol hFound).imp_right fun ⟨_, hSymbol, hFit⟩ =>
        hCarried symbol hFit hSymbol hVariable
    · rw [h.other j hj] at hFound
      exact .inl hFound
  structs name struct inside hFound hMeaning := by
    by_cases hg : g = k
    · subst hg
      refine (h.added name struct hFound).imp_right fun ⟨_, _, hFit⟩ => ?_
      have hNone := hNoStruct struct hFit
      simp [Symbol.isStructDecl, Symbol.category, hMeaning, Meaning.category] at hNone
    · rw [h.other g hg] at hFound
      exact .inl hFound
  accesses := hAccesses ▸ List.forall_mem_nil _
  linked := hLinked

/-- The name of a function or of a formal. -/
theorem Declares.advances {id id' : Ident} {meaning : Meaning}
    (h : Declares k id meaning t id' t' errors) (hAnchored : t.Anchored g) (hk : k ∈ t.stack)
    (hStruct : meaning.category ≠ .structDecl) (hVariable : meaning.category ≠ .structVar)
    (hAccesses : part'.accesses = []) (hLinked : part.Linked g t' part') :
    Advances g t t' part part' :=
  (h.binds (hAnchored.made k hk).2).advances hAnchored hk
    -- neither a struct nor a struct variable is declared here
    (fun symbol hMeaning => by
      simpa [Symbol.isStructDecl, Symbol.category, hMeaning] using hStruct)
    (fun symbol hMeaning _ hIsVariable => by
      rw [Symbol.isStructVar, Symbol.category, hMeaning] at hIsVariable
      exact absurd (of_decide_eq_true hIsVariable) hVariable)
    hAccesses hLinked

/-- A variable in an open scope. -/
theorem VarDecl.Outcome.advances {d d' : VarDecl} (h : d.Outcome t k d' t' errors)
    (hAnchored : t.Anchored g) (hk : k ∈ t.stack) (hOld : part.varDecls = [d])
    (hNew : part'.varDecls = [d']) (hStructs : part.structs = []) (hStructs' : part'.structs = [])
    (hAccesses : part'.accesses = []) : Advances g t t' part part' := by
  have hBinds := h.binds (hAnchored.made k hk).2
  -- the link holds in the table before the step, and is kept by the step
  have hFits : ∀ symbol, d'.Fits t symbol → d'.Linked g t' symbol := fun symbol hFit =>
    (hFit.linked hAnchored).mono ((hBinds.grows hAnchored hk).keeps g)
  refine hBinds.advances hAnchored hk (fun _ hFit => hFit.1) (fun symbol hFit hSymbol _ => ?_)
    hAccesses ⟨?_, ?_⟩
  · rw [hNew]
    exact ⟨d', List.mem_singleton_self d', hSymbol, hFits symbol hFit⟩
  · rw [hOld, hNew]
    exact .cons (fun symbol hGains => hFits symbol (hBinds.gained symbol hGains).2) .nil
  · rw [hStructs, hStructs']
    exact .nil

/-- A struct, with its fields. -/
theorem Builds.advances {s s' : StructDecl} (h : Builds g t t' s s') :
    Advances g t t' (.struct s) (.struct s') where
  anchored := h.anchored
  grows := h.grows
  vars k name symbol _ hFound hVariable := by
    by_cases hInside : k = t.store.length
    · subst hInside
      obtain ⟨f, hf, -, hSymbol, hFit⟩ := h.inside name symbol hFound
      exact .inr ⟨f, by rwa [Part.varDecls_struct], hSymbol, hFit.linked h.anchored⟩
    left
    by_cases hg : k = g
    · subst hg
      -- what is new in the global scope is a struct
      refine (h.added name symbol hFound).resolve_right fun ⟨_, _, hMeaning⟩ => ?_
      rw [Symbol.isStructVar, Symbol.category, hMeaning] at hVariable
      cases hVariable
    · rwa [h.other k hg hInside] at hFound
  structs name struct inside hFound hMeaning := by
    refine (h.added name struct hFound).imp_right fun ⟨_, hSymbol, hNew⟩ => ?_
    rw [hMeaning] at hNew
    cases hNew
    exact ⟨s', List.mem_singleton_self s', hSymbol, h.fills⟩
  accesses := List.forall_mem_nil _
  linked :=
    { vars := by
        rw [Part.varDecls_struct, Part.varDecls_struct]
        exact h.fields.imp fun _ _ hGained symbol hGains =>
          (hGained symbol hGains).linked h.anchored
      structs := .cons (fun struct hGains => by
        obtain ⟨hBound, hMeaning⟩ := h.gained struct hGains
        exact ⟨hBound, _, hMeaning, h.fills⟩) .nil }

/-- Every step keeps the table anchored, and what it adds is carried by its part. -/
theorem Part.Does.advances (h : part.Does t t' part' errors) (hAnchored : t.Anchored g) :
    Advances g t t' part part' := by
  have hNone : t'.FollowsAll g [] := List.forall_mem_nil _
  cases h with
  | opens => exact .of_scopes hAnchored.push (push_scope t) hNone ⟨.nil, .nil⟩
  | closes hStack =>
    exact .of_scopes (hAnchored.pop hStack) (fun _ => rfl) hNone ⟨.nil, .nil⟩
  | func hStack hDeclares =>
    exact hDeclares.advances hAnchored (hStack ▸ List.mem_cons_self) (by simp [Meaning.category])
      (by simp [Meaning.category]) rfl ⟨.nil, .nil⟩
  | formal hStack hDeclares =>
    exact hDeclares.advances hAnchored (hStack ▸ List.mem_cons_self) (by simp [Meaning.category])
      (by simp [Meaning.category]) rfl ⟨.nil, .nil⟩
  | var hStack hOutcome | again hStack _ hOutcome =>
    exact hOutcome.advances hAnchored (hStack ▸ List.mem_cons_self) rfl rfl rfl rfl rfl
  | @repeated d =>
    -- the name is left as it was, whatever it carries
    exact .of_scopes hAnchored (fun _ => rfl) hNone
      ⟨.cons (fun symbol hGains => absurd hGains (d.id.not_gains symbol)) .nil, .nil⟩
  | struct hStack hName hFields =>
    have hGlobal := hAnchored.outermost
    rw [hStack] at hGlobal
    cases hGlobal
    exact (hName.builds hAnchored hStack hFields).advances
  | use spot =>
    refine .of_scopes hAnchored (fun _ => rfl) ?_ ⟨.nil, .nil⟩
    cases spot with
    | declaration | callee => exact hNone
    | location l => exact l.annotate_follows hAnchored

/-! ## A whole run -/

/-- The declarations among the parts carry every struct variable in scopes from `g` on and every
struct in `g`, and what the accesses among them carry has been found. -/
structure SymbolTable.Covered (g : ScopeId) (t : SymbolTable) (parts : List Part) : Prop where
  vars : ∀ k name symbol, g ≤ k → (t.scope k).lookup name = some symbol →
    symbol.isStructVar = true →
      ∃ d ∈ parts.flatMap Part.varDecls, d.id.symbol? = some symbol ∧ d.Linked g t symbol
  structs : ∀ name struct inside, (t.scope g).lookup name = some struct →
    struct.meaning = .structDecl inside →
      ∃ s ∈ parts.flatMap Part.structs, s.id.symbol? = some struct ∧ s.Fills (t.scope inside)
  accesses : t.FollowsAll g (parts.flatMap Part.accesses)

variable {done parts parts' : List Part}

/-- Nothing is bound in a new global scope, nor behind it. -/
theorem SymbolTable.Covered.restart (t : SymbolTable) : t.restart.Covered t.store.length [] where
  vars k name symbol hk hFound := by
    rw [restart_scope, scope_of_length_le hk] at hFound
    cases hFound
  structs name struct inside hFound := by
    rw [restart_scope, scope_of_length_le (Nat.le_refl _)] at hFound
    cases hFound
  accesses := List.forall_mem_nil _

/-- What a step adds is covered by the part it made. -/
theorem Advances.covered (h : Advances g t t' part part') (hCovered : t.Covered g done) :
    t'.Covered g (done ++ [part']) where
  vars k name symbol hk hFound hVariable := by
    rw [List.flatMap_append, List.flatMap_singleton]
    rcases h.vars k name symbol hk hFound hVariable with hOld | ⟨d, hd, hCarried⟩
    · obtain ⟨d, hd, hSymbol, hLinked⟩ := hCovered.vars k name symbol hk hOld hVariable
      exact ⟨d, List.mem_append_left _ hd, hSymbol, hLinked.mono (h.grows.keeps g)⟩
    · exact ⟨d, List.mem_append_right _ hd, hCarried⟩
  structs name struct inside hFound hMeaning := by
    rw [List.flatMap_append, List.flatMap_singleton]
    rcases h.structs name struct inside hFound hMeaning with hOld | ⟨s, hs, hCarried⟩
    · obtain ⟨s, hs, hSymbol, hFills⟩ := hCovered.structs name struct inside hOld hMeaning
      -- nothing has been added to the fields of this struct
      rw [h.grows.fields name struct inside hOld hMeaning]
      exact ⟨s, List.mem_append_left _ hs, hSymbol, hFills⟩
    · exact ⟨s, List.mem_append_right _ hs, hCarried⟩
  accesses := by
    rw [List.flatMap_append, List.flatMap_singleton, FollowsAll, List.forall_mem_append]
    exact ⟨hCovered.accesses.mono h.grows, h.accesses⟩

/-- What every step keeps is kept by a run, from its first part to its last. -/
theorem Run.linked (h : Run t parts t' parts' errors) (hAnchored : t.Anchored g)
    (hCovered : t.Covered g done) :
    Grows g t t' ∧ t'.Covered g (done ++ parts') ∧
      List.Forall₂ (Part.Linked g t') parts parts' := by
  -- from step to step, the parts that are done cover the table; what a step has linked stays
  -- linked under the table at the end
  induction h generalizing done with
  | nil t =>
    rw [List.append_nil]
    exact ⟨.of_scopes fun _ => rfl, hCovered, .nil⟩
  | cons hStep _ ih =>
    have hAdvances := hStep.advances hAnchored
    obtain ⟨hGrows, hCovered', hLinked⟩ := ih hAdvances.anchored (hAdvances.covered hCovered)
    rw [List.append_assoc] at hCovered'
    exact ⟨hAdvances.grows.trans hGrows, hCovered', .cons (hAdvances.linked.mono hGrows) hLinked⟩

/-- The variables of linked parts are linked one by one. -/
theorem linked_vars (h : List.Forall₂ (Part.Linked g t) parts parts') :
    List.Forall₂ (fun d d' => ∀ symbol, Ident.Gains d.id d'.id symbol → d'.Linked g t symbol)
      (parts.flatMap Part.varDecls) (parts'.flatMap Part.varDecls) :=
  List.rel_flatMap h fun _ _ hPart => hPart.vars

/-- The structs of linked parts are linked one by one. -/
theorem linked_structs (h : List.Forall₂ (Part.Linked g t) parts parts') :
    List.Forall₂ (fun s s' => ∀ struct, Ident.Gains s.id s'.id struct → s'.Linked g t struct)
      (parts.flatMap Part.structs) (parts'.flatMap Part.structs) :=
  List.rel_flatMap h fun _ _ hPart => hPart.structs

/-! ## The links of a program -/

/-- In an analysis of `p` that answers `q`, the variable or field with the symbol `owner` was
declared with the type `struct`: a declaration that carries the one carries the other, and so does
any declaration that the analysis has given the symbol. -/
structure TypedAs (p q : Program) (owner struct : Symbol) : Prop where
  carried : ∃ d ∈ q.varDecls, d.id.symbol? = some owner ∧ d.struct? = some struct
  gained : List.Forall₂ (fun d d' => Ident.Gains d.id d'.id owner → d'.struct? = some struct)
    p.varDecls q.varDecls

/-- In an analysis of `p` that answers `q`, the struct with the symbol `struct` was declared with a
field that carries `symbol` under this name. -/
structure HasField (p q : Program) (struct : Symbol) (name : String) (symbol : Symbol) : Prop where
  carried : ∃ s ∈ q.structs, s.id.symbol? = some struct ∧ s.Declares name symbol
  gained : List.Forall₂ (fun s s' => Ident.Gains s.id s'.id struct → s'.Declares name symbol)
    p.structs q.structs

/-- **Struct links.** An analysis does not fail, whatever symbols the program carries already. If a
field access then carries a symbol other than the undefined one, its left side carries the symbol of
a variable or field whose declaration has a type that carries a struct; the scope of this struct
binds the name of the field to the symbol, and a field in the declaration of the struct carries
it. -/
theorem accesses_follow_structs (a : Analyzer) (p : Program) :
    ∃ q b, a.analyze p = .ok (q, b) ∧
      ∀ access ∈ q.accesses, ∀ symbol, access.2.symbol? = some symbol → symbol ≠ .undefined →
        ∃ owner struct inside, access.1.last.symbol? = some owner ∧ TypedAs p q owner struct ∧
          struct.meaning = .structDecl inside ∧
          (b.table.scope inside).lookup access.2.name = some symbol ∧
          HasField p q struct access.2.name symbol := by
  obtain ⟨q, b, hAnalyze, hRun⟩ := analyze_runs a p
  obtain ⟨-, hCovered, hLinked⟩ := hRun.linked (.restart a.table) (.restart a.table)
  rw [List.nil_append] at hCovered
  refine ⟨q, b, hAnalyze, fun access hAccess symbol hSymbol hDefined => ?_⟩
  obtain ⟨k, owner, type, struct, inside, hBase, hOwner, hHeld, hType, hStruct, hInside, hField⟩ :=
    hCovered.accesses access hAccess symbol hSymbol hDefined
  -- the global scope has one struct of this name, so all types that are linked carry this one
  have hSame : ∀ d : VarDecl, d.Linked a.table.store.length b.table owner →
      d.struct? = some struct := by
    intro d hd
    obtain ⟨struct', hCarried, hFound⟩ := hd type hType
    rw [hStruct] at hFound
    rw [hCarried, hFound]
  -- the table is covered: declarations carry the owner and the struct
  have hVariable : owner.isStructVar = true := by
    simp [Symbol.isStructVar, Symbol.category, hType, Meaning.category]
  obtain ⟨d, hd, hCarries, hLinks⟩ := hCovered.vars k _ owner hBase hHeld hVariable
  obtain ⟨s, hs, hDeclared, hFills⟩ := hCovered.structs type struct inside hStruct hInside
  refine ⟨owner, struct, inside, hOwner, ⟨⟨d, hd, hCarries, hSame d hLinks⟩, ?_⟩, hInside, hField,
    ⟨⟨s, hs, hDeclared, hFills _ _ hField⟩, ?_⟩⟩
  · refine (linked_vars hLinked).imp fun _ d' hGained hGains => ?_
    exact hSame d' (hGained owner hGains)
  · refine (linked_structs hLinked).imp fun _ s' hGained hGains => ?_
    -- its fields are in the scope that its symbol names
    obtain ⟨-, inside', hInside', hFills'⟩ := hGained struct hGains
    rw [hInside] at hInside'
    cases hInside'
    exact hFills' _ _ hField

/-- `struct P [integer x.] struct P [boolean y.] struct Q [struct P p. struct Q q.]
void f[] [struct Q v. if (TRUE) { integer w. v:q:p:x = w:x. }]`: the second `P` is refused, and a
chain leads through two structs from inside a block. -/
def chainProgram : Program :=
  ⟨[.struct ⟨⟨⟨1, 8⟩, "P", none⟩, [⟨.integer, ⟨⟨1, 19⟩, "x", none⟩, true⟩]⟩,
    .struct ⟨⟨⟨2, 8⟩, "P", none⟩, [⟨.boolean, ⟨⟨2, 19⟩, "y", none⟩, true⟩]⟩,
    .struct ⟨⟨⟨3, 8⟩, "Q", none⟩,
      [⟨.struct ⟨⟨3, 18⟩, "P", none⟩, ⟨⟨3, 20⟩, "p", none⟩, true⟩,
        ⟨.struct ⟨⟨3, 30⟩, "Q", none⟩, ⟨⟨3, 32⟩, "q", none⟩, true⟩]⟩,
    .func
      { result := .void
        id := ⟨⟨4, 6⟩, "f", none⟩
        body := ⟨[⟨.struct ⟨⟨5, 8⟩, "Q", none⟩, ⟨⟨5, 10⟩, "v", none⟩, false⟩],
          [.ifThen (.trueLit ⟨6, 5⟩)
            ⟨[⟨.integer, ⟨⟨6, 21⟩, "w", none⟩, false⟩],
              [.assign
                (.field (.field (.field (.var ⟨⟨7, 1⟩, "v", none⟩) ⟨⟨7, 3⟩, "q", none⟩)
                  ⟨⟨7, 5⟩, "p", none⟩) ⟨⟨7, 7⟩, "x", none⟩)
                (.loc (.field (.var ⟨⟨7, 11⟩, "w", none⟩) ⟨⟨7, 13⟩, "x", none⟩))]⟩]⟩ }]⟩

/-- There are accesses that carry symbols, and the links of all of them are right. -/
theorem chainProgram_accesses_follow :
    ((Analyzer.new.analyze chainProgram).toOption.map fun answer =>
        answer.1.accesses.map fun access => access.2.symbol?.map Symbol.meaning) =
      some [some (.structVar "Q"), some (.structVar "P"), some (.regular "integer"),
        some .undefined] ∧
    ∃ q b, Analyzer.new.analyze chainProgram = .ok (q, b) ∧
      ∀ access ∈ q.accesses, ∀ symbol, access.2.symbol? = some symbol → symbol ≠ .undefined →
        ∃ owner struct inside, access.1.last.symbol? = some owner ∧
          TypedAs chainProgram q owner struct ∧ struct.meaning = .structDecl inside ∧
          (b.table.scope inside).lookup access.2.name = some symbol ∧
          HasField chainProgram q struct access.2.name symbol :=
  ⟨by decide +kernel, accesses_follow_structs Analyzer.new chainProgram⟩

end NameResolution
