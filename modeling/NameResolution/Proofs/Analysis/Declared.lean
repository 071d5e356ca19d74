import NameResolution.Proofs.Analysis.Outcome
import NameResolution.Proofs.Analysis.Settled
import NameResolution.Proofs.Tree.Relabel

/-!
# Declared names — what a row of declarations does to its scope

Whatever becomes of a declaration, its scope grows by what the annotated name says: by the symbol
on it if the scope does not bind the name yet, and by nothing if there is none. So a scope that
mirrors the names before a declaration mirrors them and the declared name after it.

* `DeclaredIn` — one declaration in a scope.
* `DeclaredAll` — declarations one after another.
* `DeclaredAll.mirrors`, `DeclaredAll.settled` — what they add up to.
-/

namespace NameResolution

open Analysis SymbolTable

/-! ## One declaration -/

/-- What a declaration in the scope `k` leads to, given by the annotated name and the struct names
in its type. -/
structure DeclaredIn (base k : ScopeId) (t : SymbolTable) (id : Ident) (typeNames : List Ident)
    (t' : SymbolTable) (errors : List Diagnostic) : Prop where
  stack : t'.stack = t.stack
  length : t'.store.length = t.store.length
  other : ∀ j, j ≠ k → t'.scope j = t.scope j
  lookup : ∀ name, (t'.scope k).lookup name =
    ((t.scope k).lookup name).or (if id.name = name then id.symbol? else none)
  symbol : ∀ symbol, id.symbol? = some symbol → symbol.origin = .declared k id.name ∧
    symbol.isUndefined = false ∧ ∀ inside, symbol.meaning.fields? = some inside → base ≤ inside
  /-- Either the name carries a symbol, or there is one error, at the name or in its type. -/
  verdict : (id.symbol?.isSome ∧ errors = []) ∨
    (id.symbol? = none ∧ ∃ d, errors = [d] ∧ d.kind ≠ .undeclared ∧
      ∃ at' ∈ typeNames ++ [id], d = .located d.kind at'.pos)

variable {base k : ScopeId} {t t' t'' : SymbolTable} {id id' : Ident} {typeNames : List Ident}
  {errors errors' : List Diagnostic}

/-- A declaration that is rejected before its scope is asked. -/
theorem DeclaredIn.rejected (hFresh : id.symbol? = none) {kind : DiagnosticKind}
    (hKind : kind ≠ .undeclared) {at' : Ident} (hAt : at' ∈ typeNames ++ [id]) :
    DeclaredIn base k t id typeNames t [.located kind at'.pos] where
  stack := rfl
  length := rfl
  other _ _ := rfl
  lookup name := by simp [hFresh]
  symbol symbol h := by
    rw [hFresh] at h
    cases h
  verdict := .inr ⟨hFresh, _, rfl, hKind, at', hAt, rfl⟩

/-- A declaration of a fresh name leaves either a symbol or one error. -/
theorem Declares.declaredIn (hk : k < t.store.length) (hFresh : id.symbol? = none)
    {meaning : Meaning} (hDefined : meaning.category ≠ .undefined)
    (hInside : ∀ inside, meaning.fields? = some inside → base ≤ inside)
    (h : Declares k id meaning t id' t' errors) :
    DeclaredIn base k t id' typeNames t' errors ∧ id'.bare = id.bare := by
  cases h with
  | taken h => exact ⟨.rejected hFresh (by decide) (by simp), rfl⟩
  | bound h =>
    -- one scope has one more name; the stack and all other scopes are as before
    refine ⟨?_, rfl⟩
    exact
      { stack := (declareIn_eq_some h).2.1
        length := declareIn_length h
        other := fun _ hj => declareIn_scope_other h hj
        lookup := fun name => by
          rw [declareIn_scope_self hk h, Scope.lookup_bind]
          rfl
        symbol := fun symbol hSymbol => by
          obtain rfl := Option.some.inj hSymbol
          refine ⟨rfl, ?_, hInside⟩
          exact decide_eq_false hDefined
        verdict := .inl ⟨rfl, rfl⟩ }

/-- A good type stays the same but for its symbol, and gives a meaning without fields. -/
theorem TypeRef.Gives.facts {type type' : TypeRef} {meaning : Meaning}
    (h : TypeRef.Gives t type type' meaning) :
    type'.relabel Ident.bare = type.relabel Ident.bare ∧ meaning.category ≠ .undefined ∧
      meaning.fields? = none := by
  cases h with
  | boolean => exact ⟨rfl, by decide, rfl⟩
  | integer => exact ⟨rfl, by decide, rfl⟩
  | struct hStruct => exact ⟨rfl, by simp [Meaning.category], rfl⟩

/-- A variable in whose scope nothing is undefined. -/
theorem VarDecl.Outcome.declaredIn {d d' : VarDecl} (hProper : t.Proper base) (hBase : base ≤ k)
    (hk : k < t.store.length) (hFresh : d.id.symbol? = none)
    (h : d.Outcome t k d' t' errors) :
    DeclaredIn base k t d'.id d'.type.idents t' errors ∧
      d'.relabel Ident.bare = d.relabel Ident.bare := by
  cases h with
  | @formal symbol hFound hFormal =>
    refine ⟨?_, rfl⟩
    exact
      { stack := rfl
        length := rfl
        other := fun _ _ => rfl
        lookup := fun name => by
          show _ = ((t.scope k).lookup name).or (if d.id.name = name then some symbol else none)
          -- the scope binds the name of the formal already, to the symbol that is put on it
          by_cases hName : d.id.name = name
          · rw [← hName, hFound]
            rfl
          · rw [if_neg hName, Option.or_none]
        symbol := fun symbol' hSymbol => by
          obtain rfl := Option.some.inj hSymbol
          exact ⟨hProper.origin k _ _ hBase hFound, hProper.defined k _ _ hBase hFound,
            hProper.fields k _ _ hBase hFound⟩
        verdict := .inl ⟨rfl, rfl⟩ }
  | void => exact ⟨.rejected hFresh (by decide) (by simp), rfl⟩
  | @noStruct structId _ hType =>
    refine ⟨.rejected hFresh (by decide) ?_, rfl⟩
    rw [hType]
    simp [TypeRef.idents]
  | typed _ hGives hDeclares =>
    obtain ⟨hType, hDefined, hNoFields⟩ := hGives.facts
    obtain ⟨hIn, hBare⟩ := hDeclares.declaredIn hk hFresh hDefined (by simp [hNoFields])
    refine ⟨hIn, ?_⟩
    show VarDecl.mk _ _ _ = VarDecl.mk _ _ _
    rw [hType, hBare]

/-! ## What one declaration adds up to -/

/-- A declaration keeps the table in good order. -/
theorem DeclaredIn.proper (hProper : t.Proper base) (hBase : base ≤ k)
    (h : DeclaredIn base k t id typeNames t' errors) : t'.Proper base := by
  -- a symbol in the new table is an old one, or the one that the name carries
  have hCases : ∀ j name symbol, (t'.scope j).lookup name = some symbol →
      (t.scope j).lookup name = some symbol ∨
        (j = k ∧ id.name = name ∧ id.symbol? = some symbol) := by
    intro j name symbol hFound
    by_cases hj : j = k
    · rw [hj, h.lookup, Option.or_eq_some_iff] at hFound
      rcases hFound with hOld | ⟨-, hNew⟩
      · exact .inl (hj ▸ hOld)
      · by_cases hName : id.name = name
        · rw [if_pos hName] at hNew
          exact .inr ⟨hj, hName, hNew⟩
        · rw [if_neg hName] at hNew
          cases hNew
    · rw [h.other j hj] at hFound
      exact .inl hFound
  exact
    { length := h.length ▸ hProper.length
      nodup := by
        rw [h.stack]
        exact hProper.nodup
      made := fun j hj => by
        rw [h.stack] at hj
        rw [h.length]
        exact hProper.made j hj
      origin := fun j name symbol hj hFound => by
        rcases hCases j name symbol hFound with hOld | ⟨rfl, rfl, hNew⟩
        · exact hProper.origin j name symbol hj hOld
        · exact (h.symbol symbol hNew).1
      defined := fun j name symbol hj hFound => by
        rcases hCases j name symbol hFound with hOld | ⟨rfl, rfl, hNew⟩
        · exact hProper.defined j name symbol hj hOld
        · exact (h.symbol symbol hNew).2.1
      fields := fun j name symbol hj hFound => by
        rcases hCases j name symbol hFound with hOld | ⟨rfl, rfl, hNew⟩
        · exact hProper.fields j name symbol hj hOld
        · exact (h.symbol symbol hNew).2.2 }

/-- A declared name is the last one of the innermost scope, in the table as in the text. -/
theorem DeclaredIn.mirrors {stack : List ScopeId} {inner : List Ident} {outer : Scopes}
    (hStack : t.stack = k :: stack) (hProper : t.Proper base)
    (h : DeclaredIn base k t id typeNames t' errors) (hMirrors : t.Mirrors (inner :: outer)) :
    t'.Mirrors ((inner ++ [id]) :: outer) := by
  unfold Mirrors at hMirrors ⊢
  rw [hStack] at hMirrors
  rw [h.stack, hStack]
  obtain - | ⟨hInner, hOuter⟩ := hMirrors
  -- the scope that declares is open once, so the others are as they were
  have hNot : k ∉ stack := (List.nodup_cons.mp (hStack ▸ hProper.nodup)).1
  have hOuter' : t'.MirrorsOn stack outer := by
    refine MirrorsOn.congr hOuter fun j hj => h.other j ?_
    rintro rfl
    exact hNot hj
  refine .cons (fun name => ?_) hOuter'
  rw [h.lookup, hInner, firstAccepted_concat]

/-- The site of a declaration is settled: it has its symbol or its error. -/
theorem DeclaredIn.settled (h : DeclaredIn base k t id typeNames t' errors) (scopes : Scopes) :
    Settled [⟨scopes, .declaration id typeNames⟩] errors where
  resolved := by simp [Spot.lookedUp]
  defined := by simp [Spot.lookedUp]
  undeclared := by
    rcases h.verdict with ⟨-, rfl⟩ | ⟨-, d, rfl, hKind, -⟩
    · rfl
    · simp [hKind, Site.undeclared, Spot.lookedUp]
  reported := by
    rw [List.filter_singleton]
    show List.Forall₂ Site.Reports (bif id.isUnbound then _ else _) errors
    -- a name with a symbol has no error, one without has exactly its own
    rcases h.verdict with ⟨hBound, rfl⟩ | ⟨hUnbound, d, rfl, -, at', hAt, hd⟩
    · have hBound' : id.isUnbound = false := by
        simpa [Ident.isUnbound, Option.isSome_iff_ne_none] using hBound
      rw [hBound']
      exact .nil
    · rw [show id.isUnbound = true from decide_eq_true hUnbound]
      exact .cons ⟨at', hAt, hd⟩ .nil
  breaks s hs := by
    obtain rfl := List.mem_singleton.mp hs
    rfl

/-! ## Declarations in a row -/

/-- What declarations in the scope `k` lead to one after another. -/
inductive DeclaredAll (base k : ScopeId) :
    SymbolTable → List (Ident × List Ident) → SymbolTable → List Diagnostic → Prop where
  | nil (t : SymbolTable) : DeclaredAll base k t [] t []
  | cons {t t' t'' : SymbolTable} {id : Ident} {typeNames : List Ident}
    {names : List (Ident × List Ident)} {errors errors' : List Diagnostic}
    (hHead : DeclaredIn base k t id typeNames t' errors)
    (hRest : DeclaredAll base k t' names t'' errors') :
    DeclaredAll base k t ((id, typeNames) :: names) t'' (errors ++ errors')

variable {names names' : List (Ident × List Ident)}

namespace DeclaredAll

/-- Declarations in a row, and then some more. -/
theorem append (h : DeclaredAll base k t names t' errors)
    (h' : DeclaredAll base k t' names' t'' errors') :
    DeclaredAll base k t (names ++ names') t'' (errors ++ errors') := by
  induction h with
  | nil t => exact h'
  | cons hHead _ ih =>
    rw [List.append_assoc]
    exact .cons hHead (ih h')

/-- Declarations open and close no scope. -/
theorem stack (h : DeclaredAll base k t names t' errors) : t'.stack = t.stack := by
  induction h with
  | nil t => rfl
  | cons hHead _ ih => rw [ih, hHead.stack]

/-- Declarations in an existing scope make no scope. -/
theorem length (h : DeclaredAll base k t names t' errors) :
    t'.store.length = t.store.length := by
  induction h with
  | nil t => rfl
  | cons hHead _ ih => rw [ih, hHead.length]

/-- Declarations touch one scope only. -/
theorem other (h : DeclaredAll base k t names t' errors) {j : ScopeId} (hj : j ≠ k) :
    t'.scope j = t.scope j := by
  induction h with
  | nil t => rfl
  | cons hHead _ ih => rw [ih, hHead.other j hj]

/-- Declarations keep the table in good order. -/
theorem proper (hProper : t.Proper base) (hBase : base ≤ k)
    (h : DeclaredAll base k t names t' errors) : t'.Proper base := by
  induction h with
  | nil t => exact hProper
  | cons hHead _ ih => exact ih (hHead.proper hProper hBase)

/-- The innermost scope mirrors the declared names behind those it mirrored before. -/
theorem mirrors {stack : List ScopeId} {inner : List Ident} {outer : Scopes}
    (hStack : t.stack = k :: stack) (hProper : t.Proper base) (hBase : base ≤ k)
    (h : DeclaredAll base k t names t' errors) (hMirrors : t.Mirrors (inner :: outer)) :
    t'.Mirrors ((inner ++ names.map (·.1)) :: outer) := by
  induction h generalizing inner with
  | nil t => simpa using hMirrors
  | @cons t t' t'' id typeNames names errors errors' hHead _ ih =>
    -- the new name joins the innermost scope, where the induction goes on
    have hNext := ih (hHead.stack.trans hStack) (hHead.proper hProper hBase)
      (hHead.mirrors hStack hProper hMirrors)
    rwa [List.append_assoc] at hNext

/-- The sites of some declarations are settled one by one. -/
theorem settled (h : DeclaredAll base k t names t' errors) (outer : Scopes) (inner : List Ident) :
    Settled (declarationSites outer inner names) errors := by
  induction h generalizing inner with
  | nil t => exact .nil
  | @cons t t' t'' id typeNames names errors errors' hHead _ ih =>
    exact (hHead.settled (inner :: outer)).append (ih (inner ++ [id]))

/-- Declarations in a scope that is not open. -/
theorem settled_at (h : DeclaredAll base k t names t' errors) (scopes : Scopes) :
    Settled (names.map fun name => ⟨scopes, .declaration name.1 name.2⟩) errors := by
  induction h with
  | nil t => exact .nil
  | cons hHead _ ih => exact (hHead.settled scopes).append ih

end DeclaredAll

/-! ## Rows of variables and formals -/

/-- What a step needs to know of its table: which scopes are open, and that the scope that declares
has been made. -/
structure Ready (base k : ScopeId) (stack : List ScopeId) (t : SymbolTable) : Prop where
  proper : t.Proper base
  base_le : base ≤ k
  made : k < t.store.length
  stack : t.stack = stack

/-- The scope is ready for the next declaration. -/
theorem DeclaredIn.ready {stack : List ScopeId} (hReady : Ready base k stack t)
    (h : DeclaredIn base k t id typeNames t' errors) : Ready base k stack t' where
  proper := h.proper hReady.proper hReady.base_le
  base_le := hReady.base_le
  made := h.length ▸ hReady.made
  stack := h.stack.trans hReady.stack

/-- The scope is ready for what follows the declarations. -/
theorem DeclaredAll.ready {stack : List ScopeId} (hReady : Ready base k stack t)
    (h : DeclaredAll base k t names t' errors) : Ready base k stack t' where
  proper := h.proper hReady.proper hReady.base_le
  base_le := hReady.base_le
  made := h.length ▸ hReady.made
  stack := h.stack.trans hReady.stack

/-- Steps that each declare one name in `k` declare all names in a row. -/
theorem mapM_yields {δ : Type} {step : δ → Resolve δ} {name : δ → Ident × List Ident}
    {bare : δ → δ} {stack : List ScopeId} {ds : List δ}
    (hStep : ∀ d ∈ ds, ∀ t, Ready base k stack t → ∃ d' t' errors, Yields (step d) t d' t' errors ∧
      DeclaredIn base k t (name d').1 (name d').2 t' errors ∧ bare d' = bare d)
    (hReady : Ready base k stack t) :
    ∃ ds' t' errors, Yields (ds.mapM step) t ds' t' errors ∧
      DeclaredAll base k t (ds'.map name) t' errors ∧ ds'.map bare = ds.map bare := by
  -- induction on the declarations; each one finds the scope ready as the one before left it
  induction ds generalizing t with
  | nil => exact ⟨[], t, [], Yields.pure [] t, .nil t, rfl⟩
  | cons d ds ih =>
    obtain ⟨d', t', errors, hYields, hDeclared, hBare⟩ := hStep d List.mem_cons_self t hReady
    obtain ⟨ds', t'', errors', hYields', hDeclared', hBare'⟩ :=
      ih (fun e he => hStep e (List.mem_cons_of_mem d he)) (hDeclared.ready hReady)
    refine ⟨d' :: ds', t'', errors ++ errors', hYields.mapM_cons hYields',
      .cons hDeclared hDeclared', ?_⟩
    rw [List.map_cons, List.map_cons, hBare, hBare']

/-- A variable or a field is declared in the scope that is named. -/
theorem VarDecl.resolveIn_declares {stack : List ScopeId} (hReady : Ready base k stack t)
    (d : VarDecl) (hFresh : d.id.symbol? = none) :
    ∃ d' t' errors, Yields (d.resolveIn k) t d' t' errors ∧
      DeclaredIn base k t d'.id d'.type.idents t' errors ∧
      d'.relabel Ident.bare = d.relabel Ident.bare := by
  obtain ⟨d', t', errors, hYields, hOutcome⟩ := d.resolveIn_yields k t
  exact ⟨d', t', errors, hYields,
    hOutcome.declaredIn hReady.proper hReady.base_le hReady.made hFresh⟩

/-- A variable is declared in the innermost scope. -/
theorem VarDecl.resolve_declares {stack : List ScopeId} (hReady : Ready base k (k :: stack) t)
    (d : VarDecl) (hFresh : d.id.symbol? = none) :
    ∃ d' t' errors, Yields d.resolve t d' t' errors ∧
      DeclaredIn base k t d'.id d'.type.idents t' errors ∧
      d'.relabel Ident.bare = d.relabel Ident.bare := by
  obtain ⟨d', t', errors, hYields, hOutcome⟩ := VarDecl.resolve_yields hReady.stack d
  exact ⟨d', t', errors, hYields,
    hOutcome.declaredIn hReady.proper hReady.base_le hReady.made hFresh⟩

/-- A formal is declared in the innermost scope, and its type is not looked at. -/
theorem Formal.resolve_declares {stack : List ScopeId} (hReady : Ready base k (k :: stack) t)
    (f : Formal) (hFresh : f.id.symbol? = none) :
    ∃ f' t' errors, Yields f.resolve t f' t' errors ∧
      DeclaredIn base k t f'.id [] t' errors ∧
      f'.relabel Ident.bare = f.relabel Ident.bare := by
  -- a formal has no field table, and is a symbol of its own category
  obtain ⟨id', t', errors, hYields, hDeclares⟩ :=
    declareHere_yields hReady.stack f.id (.formal f.type.name)
  obtain ⟨hIn, hBare⟩ := hDeclares.declaredIn hReady.made hFresh (by simp [Meaning.category])
    (by rintro _ ⟨⟩)
  refine ⟨{ f with id := id' }, t', errors, ?_, hIn, ?_⟩
  · exact hYields.bind_pure fun id => ({ f with id := id } : Formal)
  · show Formal.mk _ _ = Formal.mk _ _
    rw [hBare]

/-- The variables of a block. -/
theorem varDecls_declare {stack : List ScopeId} (hReady : Ready base k (k :: stack) t)
    (ds : List VarDecl) (hFresh : ∀ d ∈ ds, d.id.symbol? = none) :
    ∃ ds' t' errors, Yields (ds.mapM VarDecl.resolve) t ds' t' errors ∧
      DeclaredAll base k t (varNames ds') t' errors ∧
      ds'.map (VarDecl.relabel Ident.bare) = ds.map (VarDecl.relabel Ident.bare) :=
  mapM_yields (fun d hd _ ht => d.resolve_declares ht (hFresh d hd)) hReady

/-- The fields of a struct, in a scope that need not be open. -/
theorem fields_declare {stack : List ScopeId} (hReady : Ready base k stack t)
    (ds : List VarDecl) (hFresh : ∀ d ∈ ds, d.id.symbol? = none) :
    ∃ ds' t' errors, Yields (ds.mapM (VarDecl.resolveIn k)) t ds' t' errors ∧
      DeclaredAll base k t (varNames ds') t' errors ∧
      ds'.map (VarDecl.relabel Ident.bare) = ds.map (VarDecl.relabel Ident.bare) :=
  mapM_yields (fun d hd _ ht => d.resolveIn_declares ht (hFresh d hd)) hReady

/-- The formals of a function are declared one by one. -/
theorem formals_declare {stack : List ScopeId} (hReady : Ready base k (k :: stack) t)
    (fs : List Formal) (hFresh : ∀ f ∈ fs, f.id.symbol? = none) :
    ∃ fs' t' errors, Yields (fs.mapM Formal.resolve) t fs' t' errors ∧
      DeclaredAll base k t (formalNames fs') t' errors ∧
      fs'.map (Formal.relabel Ident.bare) = fs.map (Formal.relabel Ident.bare) :=
  mapM_yields (fun f hf _ ht => f.resolve_declares ht (hFresh f hf)) hReady

/-- The variables of a function body. One that repeats the name of a formal is rejected. -/
theorem resolveLocals_declares {stack : List ScopeId} (hReady : Ready base k (k :: stack) t)
    (seen : List String) (ds : List VarDecl) (hFresh : ∀ d ∈ ds, d.id.symbol? = none) :
    ∃ ds' t' errors, Yields (resolveLocals seen ds) t ds' t' errors ∧
      DeclaredAll base k t (varNames ds') t' errors ∧
      ds'.map (VarDecl.relabel Ident.bare) = ds.map (VarDecl.relabel Ident.bare) := by
  induction ds generalizing t seen with
  | nil => exact ⟨[], t, [], Yields.pure [] t, .nil t, rfl⟩
  | cons d ds ih =>
    have hFreshHead := hFresh d List.mem_cons_self
    have hFreshRest : ∀ e ∈ ds, e.id.symbol? = none :=
      fun e he => hFresh e (List.mem_cons_of_mem d he)
    -- a name that is a formal's and has been seen among the variables is refused before its type
    by_cases hRepeats :
        (seen.contains d.id.name && (t.lookupLocal d.id.name).any Symbol.isFormal) = true
    · have hHead : DeclaredIn base k t d.id d.type.idents t
          [.located .multiplyDeclared d.id.pos] :=
        .rejected hFreshHead (by decide) (by simp)
      obtain ⟨ds', t', errors, hYields, hDeclared, hBare⟩ :=
        ih hReady (d.id.name :: seen) hFreshRest
      refine ⟨d :: ds', t', _, resolveLocals_repeated hRepeats hYields, .cons hHead hDeclared, ?_⟩
      rw [List.map_cons, List.map_cons, hBare]
    · obtain ⟨d', t', errors, hYields, hHead, hBare⟩ := d.resolve_declares hReady hFreshHead
      obtain ⟨ds', t'', errors', hYields', hDeclared, hBare'⟩ :=
        ih (hHead.ready hReady) (d.id.name :: seen) hFreshRest
      refine ⟨d' :: ds', t'', _, resolveLocals_resolved hRepeats hYields hYields',
        .cons hHead hDeclared, ?_⟩
      rw [List.map_cons, List.map_cons, hBare, hBare']

end NameResolution
