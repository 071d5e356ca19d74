import NameResolution.Proofs.Analysis.Kinds
import NameResolution.Proofs.Analysis.Order
import NameResolution.Proofs.Tree.PartSites

/-!
# Struct types — what becomes of the struct names in the types of variables and fields

The struct that a variable or a field is of is looked up when the declaration is reached, in the
scopes around it. If the name stands for a struct there, the name carries its symbol, and else it is
reported.

Only one declaration passes without a look at its type: a variable of a function body that is named
like a formal of the function. It stands for the formal, or is refused for being the second one.

* `Scopes.Settles` — a struct name in the scopes around it.
* `VarDecl.Outcome.settles`, `Run.settles` — one declaration, and a run.
* `struct_types_are_settled` — a whole analysis.
-/

namespace NameResolution

open Analysis SymbolTable

variable {g k : ScopeId} {tables rest : List ScopeId} {t t' : SymbolTable} {scopes : Scopes}
  {errors errors' : List Diagnostic} {type : Ident}

/-! ## Struct names in scopes -/

/-- The struct names in the type of what is declared at a spot. -/
def Spot.typeNames : Spot → List Ident
  | declaration _ typeNames => typeNames
  | location _ | callee _ => []

/-- What must become of a struct name in a type: if the scopes give it the symbol of a struct, it
carries that symbol, and else it is reported. -/
structure Scopes.Settles (scopes : Scopes) (errors : List Diagnostic) (type : Ident) : Prop where
  bound : ∀ struct, scopes.find type.name = some struct → struct.isStructDecl = true →
    type.symbol? = some struct
  reported : (∀ struct, scopes.find type.name = some struct → struct.isStructDecl = false) →
    .located .invalidStructType type.pos ∈ errors

/-- The struct names of a declaration are settled. -/
def Site.TypesSettled (errors : List Diagnostic) (s : Site) : Prop :=
  ∀ type ∈ s.spot.typeNames, s.scopes.Settles errors type

/-- A variable of a function body is named like a formal of the function. Its scopes are the one of
the function and the global one, and the first gives its name the symbol of the formal. -/
def Site.RepeatsFormal (s : Site) : Prop :=
  ∃ inner globals, s.scopes = [inner, globals] ∧
    ∃ id ∈ s.spot.declared, (firstAccepted inner id.name).any Symbol.isFormal = true

/-- More errors settle no less. -/
theorem Scopes.Settles.mono (h : scopes.Settles errors type) (hMore : errors ⊆ errors') :
    scopes.Settles errors' type where
  bound := h.bound
  reported hNone := hMore (h.reported hNone)

/-- A name under which a struct is visible. -/
theorem Scopes.Settles.of_visible {struct : Symbol} (hMirrors : t.Mirrors scopes)
    (hVisible : t.lookupStruct type.name = some struct) :
    scopes.Settles errors (type.bind struct) where
  bound other hFound _ := by
    obtain ⟨hLookup, -⟩ := Option.filter_eq_some_iff.mp hVisible
    rw [hMirrors.lookup_eq] at hLookup
    exact hLookup.symm.trans hFound
  reported hNone := by
    obtain ⟨hLookup, hStruct⟩ := Option.filter_eq_some_iff.mp hVisible
    rw [hMirrors.lookup_eq] at hLookup
    cases hStruct.symm.trans (hNone struct hLookup)

/-- A name under which no struct is visible, and which is reported. -/
theorem Scopes.Settles.of_reported (hMirrors : t.Mirrors scopes)
    (hNone : t.lookupStruct type.name = none)
    (hReported : .located .invalidStructType type.pos ∈ errors) : scopes.Settles errors type where
  bound struct hFound hStruct := by
    rw [← hMirrors.lookup_eq] at hFound
    rw [SymbolTable.lookupStruct, hFound, Option.filter_some, if_pos hStruct] at hNone
    cases hNone
  reported _ := hReported

/-- A variable or a field whose name is not that of a formal of its scope. -/
theorem VarDecl.Outcome.settles {d d' : VarDecl} (h : d.Outcome t k d' t' errors)
    (hMirrors : t.Mirrors scopes)
    (hName : ((t.scope k).lookup d.id.name).any Symbol.isFormal = false) :
    ∀ type ∈ d'.type.idents, scopes.Settles errors type := by
  obtain ⟨type, id, isField⟩ := d
  -- the formal case is excluded, and the void type holds no name
  cases h with
  | formal hFound hFormal =>
    rw [hFound, Option.any_some, hFormal] at hName
    cases hName
  | void _ hType =>
    obtain rfl : type = .void := hType
    exact List.forall_mem_nil _
  | @noStruct structId _ hType hNone =>
    obtain rfl : type = .struct structId := hType
    exact List.forall_mem_singleton.mpr (.of_reported hMirrors hNone List.mem_cons_self)
  | typed _ hGives _ =>
    cases hGives with
    | boolean | integer => exact List.forall_mem_nil _
    | struct hVisible => exact List.forall_mem_singleton.mpr (.of_visible hMirrors hVisible)

/-! ## What a step keeps -/

/-- The table is one that an analysis reaches at a place with these scopes. -/
structure SymbolTable.Agrees (g : ScopeId) (tables : List ScopeId) (t : SymbolTable)
    (scopes : Scopes) : Prop where
  kinds : t.Kinds g tables
  proper : t.Proper g
  mirrors : t.Mirrors scopes

namespace SymbolTable.Agrees

/-- The table of a new analysis agrees with empty scopes. -/
theorem restart (t : SymbolTable) : t.restart.Agrees t.store.length [] [[]] where
  kinds := .restart t
  proper := .restart t
  mirrors := by
    refine .cons (fun name => ?_) .nil
    rw [restart_scope, scope_of_length_le (Nat.le_refl _)]
    rfl

/-- The innermost scope agrees with the innermost list of names. -/
theorem exists_inner (h : t.Agrees g tables scopes) (hStack : t.stack = k :: rest) :
    ∃ inner outer, scopes = inner :: outer ∧ outer.length = rest.length ∧
      ∀ name, (t.scope k).lookup name = firstAccepted inner name := by
  have hMirrors := h.mirrors
  unfold SymbolTable.Mirrors at hMirrors
  rw [hStack] at hMirrors
  obtain - | ⟨hInner, hOuter⟩ := hMirrors
  exact ⟨_, _, rfl, hOuter.length_eq.symm, hInner⟩

/-- One more name in the innermost scope. -/
theorem declared {id : Ident} {typeNames : List Ident} (h : t.Agrees g tables scopes)
    (hStack : t.stack = k :: rest) (hIn : DeclaredIn g k t id typeNames t' errors)
    (hKinds : t'.Kinds g tables) : t'.Agrees g tables (scopes.add id) := by
  obtain ⟨inner, outer, rfl, -⟩ := h.exists_inner hStack
  have hBase : g ≤ k := (h.proper.made k (hStack ▸ List.mem_cons_self)).1
  exact ⟨hKinds, hIn.proper h.proper hBase, hIn.mirrors hStack h.proper h.mirrors⟩

/-- Formals are in the scope of a function, which is the one behind the global scope. -/
theorem formal_site {id : Ident} {name : String} {typeNames : List Ident}
    (h : t.Agrees g tables scopes) (hStack : t.stack = k :: rest)
    (hFormal : ((t.scope k).lookup name).any Symbol.isFormal = true) (hName : id.name = name) :
    Site.RepeatsFormal ⟨scopes, .declaration id typeNames⟩ := by
  -- a formal stands at the level of a function, so there is one scope of the text around it
  obtain ⟨inner, outer, rfl, hLength, hInner⟩ := h.exists_inner hStack
  obtain ⟨symbol, hFound, hIsFormal⟩ := (Option.any_eq_true _ _).mp hFormal
  have hLevel : t.OpenAt rest.length k := by
    rw [OpenAt, hStack, List.reverse_cons]
    exact (List.getElem?_append_right (Nat.le_of_eq List.length_reverse)).trans (by simp)
  have hStands := h.kinds.levels _ k hLevel _ (Scope.mem_of_lookup hFound)
  have hCategory : symbol.category = .formal := of_decide_eq_true hIsFormal
  simp only [Category.StandsAt, hCategory, Category.isPlain] at hStands
  have hOne : outer.length = 1 := by simpa [hLength] using hStands
  obtain ⟨globals, rfl⟩ := List.length_eq_one_iff.mp hOne
  exact ⟨inner, globals, rfl, id, List.mem_cons_self, by rw [hName, ← hInner, hFormal]⟩

end SymbolTable.Agrees

/-! ## Declarations -/

/-- The name of a declaration settles nothing, unless its type holds struct names. -/
theorem typesSettled_of_nil {s : Site} (h : s.spot.typeNames = []) : s.TypesSettled errors := by
  rw [Site.TypesSettled, h]
  exact List.forall_mem_nil _

/-- A variable of the innermost scope. -/
theorem VarDecl.Outcome.settles_site {d d' : VarDecl} (h : d.Outcome t k d' t' errors)
    (hAgrees : t.Agrees g tables scopes) (hStack : t.stack = k :: rest)
    (hFresh : d.id.symbol? = none) : t'.Agrees g tables (scopes.add d'.id) ∧
      ∀ s ∈ [Site.mk scopes (.declaration d'.id d'.type.idents)], ¬ s.RepeatsFormal →
        s.TypesSettled errors := by
  have hMem : k ∈ t.stack := hStack ▸ List.mem_cons_self
  obtain ⟨hBase, hMade⟩ := hAgrees.proper.made k hMem
  -- the name is declared as any other, and the type decides about the rest
  obtain ⟨hIn, -⟩ := h.declaredIn hAgrees.proper hBase hMade hFresh
  refine ⟨hAgrees.declared hStack hIn (h.kinds hAgrees.kinds (.inl hMem)), ?_⟩
  refine List.forall_mem_singleton.mpr fun hOther => h.settles hAgrees.mirrors ?_
  rw [← Bool.not_eq_true]
  exact fun hFormal => hOther (hAgrees.formal_site hStack hFormal h.name_eq)

/-- The fields of a struct, in a scope that is never open and holds no formals. -/
theorem Outcomes.settles {ds ds' : List VarDecl} (h : Outcomes k t ds t' ds' errors)
    (hAgrees : t.Agrees g tables scopes) (hTable : k ∈ tables) (hBase : g ≤ k)
    (hFresh : ∀ d ∈ ds, d.id.symbol? = none) : t'.Agrees g tables scopes ∧
      ∀ d ∈ ds', ∀ type ∈ d.type.idents, scopes.Settles errors type := by
  induction h with
  | nil t => exact ⟨hAgrees, List.forall_mem_nil _⟩
  | @cons t t₁ t₂ d d' ds ds' errors₁ errors₂ hHead _ ih =>
    obtain ⟨hFreshHead, hFreshRest⟩ := List.forall_mem_cons.mp hFresh
    obtain ⟨hMade, hClosed⟩ := hAgrees.kinds.closed k hTable
    obtain ⟨hIn, -⟩ := hHead.declaredIn hAgrees.proper hBase hMade hFreshHead
    -- no open scope is changed
    have hMirrors : t₁.Mirrors scopes := by
      unfold SymbolTable.Mirrors
      rw [hIn.stack]
      exact MirrorsOn.congr hAgrees.mirrors fun j hj =>
        hIn.other j (ne_of_mem_of_not_mem hj hClosed)
    have hNext : t₁.Agrees g tables scopes :=
      ⟨hHead.kinds hAgrees.kinds (.inr hTable), hIn.proper hAgrees.proper hBase, hMirrors⟩
    obtain ⟨hLast, hRest⟩ := ih hNext hFreshRest
    refine ⟨hLast, List.forall_mem_cons.mpr ⟨fun type hType => ?_, fun e he type hType =>
      (hRest e he type hType).mono (List.subset_append_right _ _)⟩⟩
    refine (hHead.settles hAgrees.mirrors ?_ type hType).mono (List.subset_append_left _ _)
    -- what is in the scope is a variable or a struct variable
    rw [Option.any_eq_false]
    intro symbol hFound
    rw [← Bool.not_eq_true]
    intro hFormal
    have hPlain := hAgrees.kinds.fields k hTable _ (Scope.mem_of_lookup hFound)
    rw [show symbol.category = .formal from of_decide_eq_true hFormal] at hPlain
    cases hPlain

/-! ## Fresh parts -/

/-- Nothing that the part declares carries a symbol, and what it uses is no declaration. -/
def Part.Fresh : Part → Prop
  | func id _ _ => id.symbol? = none
  | formal f => f.id.symbol? = none
  | var d | again d => d.id.symbol? = none
  | struct s => s.id.symbol? = none ∧ ∀ d ∈ s.fields, d.id.symbol? = none
  | use spot => spot.declared = []
  | opens | closes => True

mutual

/-- Expressions declare nothing. -/
theorem Expr.spots_declared : (e : Expr) → ∀ spot ∈ e.spots, spot.declared = []
  | .trueLit _ | .falseLit _ | .intLit _ _ | .strLit _ _ => List.forall_mem_nil _
  | .loc _ => List.forall_mem_singleton.mpr rfl
  | .assign _ value => List.forall_mem_cons.mpr ⟨rfl, value.spots_declared⟩
  | .call _ args => List.forall_mem_cons.mpr ⟨rfl, Expr.spotsAll_declared args⟩
  | .unary _ operand => operand.spots_declared
  | .binary _ left right =>
    List.forall_mem_append.mpr ⟨left.spots_declared, right.spots_declared⟩

/-- Expressions declare nothing. -/
theorem Expr.spotsAll_declared :
    (es : List Expr) → ∀ spot ∈ Expr.spotsAll es, spot.declared = []
  | [] => List.forall_mem_nil _
  | e :: es => List.forall_mem_append.mpr ⟨e.spots_declared, Expr.spotsAll_declared es⟩

end

/-- None of the identifiers carries a symbol. -/
def Unbound (ids : List Ident) : Prop :=
  ∀ id ∈ ids, id.symbol? = none

theorem Unbound.append {ids ids' : List Ident} :
    Unbound (ids ++ ids') ↔ Unbound ids ∧ Unbound ids' :=
  List.forall_mem_append

/-- A use is fresh, as it declares nothing. -/
theorem uses_fresh {spots : List Spot} (h : ∀ spot ∈ spots, spot.declared = []) :
    ∀ part ∈ usesOf spots, part.Fresh :=
  List.forall_mem_map.mpr h

/-- A scope around some parts declares nothing. -/
theorem nested_fresh {parts : List Part} (h : ∀ part ∈ parts, part.Fresh) :
    ∀ part ∈ nested parts, part.Fresh :=
  List.forall_mem_cons.mpr
    ⟨trivial, List.forall_mem_append.mpr ⟨h, List.forall_mem_singleton.mpr trivial⟩⟩

/-- Variables are unbound if their identifiers are. -/
theorem varDecls_unbound {ds : List VarDecl} (h : Unbound (ds.flatMap VarDecl.idents)) :
    ∀ d ∈ ds, d.id.symbol? = none :=
  fun _ hd => h _ (mem_idents_of_mem_decls hd)

/-- Variables without symbols are fresh. -/
theorem vars_fresh {ds : List VarDecl} (h : Unbound (ds.flatMap VarDecl.idents)) :
    ∀ part ∈ ds.map Part.var, part.Fresh :=
  List.forall_mem_map.mpr (varDecls_unbound h)

/-- The variables of a function body are fresh if they have no symbols. -/
theorem localParts_fresh (seen : List String) {ds : List VarDecl}
    (h : ∀ d ∈ ds, d.id.symbol? = none) : ∀ part ∈ localParts seen ds, part.Fresh := by
  induction ds generalizing seen with
  | nil => exact List.forall_mem_nil _
  | cons d ds ih =>
    obtain ⟨hHead, hRest⟩ := List.forall_mem_cons.mp h
    refine List.forall_mem_cons.mpr ⟨?_, ih _ hRest⟩
    split <;> exact hHead

mutual

/-- The parts of a statement without symbols are fresh. -/
theorem Stmt.parts_fresh : (s : Stmt) → Unbound s.idents → ∀ part ∈ s.parts, part.Fresh
  | .assign _ value, _ => List.forall_mem_cons.mpr ⟨rfl, uses_fresh value.spots_declared⟩
  | .increment _, _ | .decrement _, _ | .read _, _ => List.forall_mem_singleton.mpr rfl
  | .write value, _ | .ret (some value), _ => uses_fresh value.spots_declared
  | .ret none, _ => List.forall_mem_nil _
  | .call _ args, _ =>
    List.forall_mem_cons.mpr ⟨rfl, uses_fresh (Expr.spotsAll_declared args)⟩
  | .ifThen cond ⟨decls, stmts⟩, h | .loop cond ⟨decls, stmts⟩, h => by
    obtain ⟨hHead, hStmts⟩ := Unbound.append.mp h
    -- variables of a block have no symbols yet, because none of its names has
    exact List.forall_mem_append.mpr ⟨uses_fresh cond.spots_declared,
      nested_fresh (List.forall_mem_append.mpr ⟨vars_fresh (Unbound.append.mp hHead).2,
        Stmt.partsAll_fresh stmts hStmts⟩)⟩
  | .ifElse cond ⟨decls, stmts⟩ ⟨elseDecls, elseStmts⟩, h => by
    obtain ⟨hFront, hElseStmts⟩ := Unbound.append.mp h
    obtain ⟨hThen, hElseDecls⟩ := Unbound.append.mp hFront
    obtain ⟨hHead, hStmts⟩ := Unbound.append.mp hThen
    have hBody := nested_fresh (List.forall_mem_append.mpr
      ⟨vars_fresh (Unbound.append.mp hHead).2, Stmt.partsAll_fresh stmts hStmts⟩)
    have hElse := nested_fresh (List.forall_mem_append.mpr
      ⟨vars_fresh hElseDecls, Stmt.partsAll_fresh elseStmts hElseStmts⟩)
    exact List.forall_mem_append.mpr
      ⟨uses_fresh cond.spots_declared, List.forall_mem_append.mpr ⟨hBody, hElse⟩⟩

theorem Stmt.partsAll_fresh :
    (ss : List Stmt) → Unbound (Stmt.identsAll ss) → ∀ part ∈ Stmt.partsAll ss, part.Fresh
  | [], _ => List.forall_mem_nil _
  | s :: ss, h => by
    obtain ⟨hHead, hRest⟩ := Unbound.append.mp h
    exact List.forall_mem_append.mpr ⟨Stmt.parts_fresh s hHead, Stmt.partsAll_fresh ss hRest⟩

end

/-- The parts of a function without symbols are fresh. -/
theorem FuncDecl.parts_fresh {f : FuncDecl} (h : Unbound f.idents) :
    ∀ part ∈ f.parts, part.Fresh := by
  obtain ⟨hSignature, hBody⟩ := Unbound.append.mp h
  obtain ⟨hHead, hFormals⟩ := Unbound.append.mp hSignature
  obtain ⟨hDecls, hStmts⟩ := Unbound.append.mp hBody
  refine List.forall_mem_cons.mpr ⟨(Unbound.append.mp hHead).2 f.id List.mem_cons_self, ?_⟩
  refine nested_fresh (List.forall_mem_append.mpr ⟨List.forall_mem_map.mpr fun formal hFormal => ?_,
    List.forall_mem_append.mpr ⟨localParts_fresh [] (varDecls_unbound hDecls),
      Stmt.partsAll_fresh _ hStmts⟩⟩)
  exact hFormals formal.id (List.mem_flatMap.mpr
    ⟨formal, hFormal, List.mem_append_right _ List.mem_cons_self⟩)

/-- The parts of a program without symbols are fresh. -/
theorem Program.Fresh.parts {p : Program} (hFresh : p.Fresh) : ∀ part ∈ p.parts, part.Fresh := by
  intro part hPart
  obtain ⟨d, hd, hPart⟩ := List.mem_flatMap.mp hPart
  have hUnbound : Unbound d.idents := fun id hId => hFresh id (List.mem_flatMap.mpr ⟨d, hd, hId⟩)
  cases d with
  | var d =>
    obtain rfl := List.mem_singleton.mp hPart
    exact (Unbound.append.mp hUnbound).2 d.id List.mem_cons_self
  | func f => exact f.parts_fresh hUnbound part hPart
  | struct s =>
    obtain rfl := List.mem_singleton.mp hPart
    obtain ⟨hId, hFields⟩ := List.forall_mem_cons.mp hUnbound
    exact ⟨hId, varDecls_unbound hFields⟩

/-! ## Steps and runs -/

/-- One step: the table agrees with the scopes behind the part, and struct names in types are
settled. -/
theorem Part.Does.settles {part part' : Part} (hDoes : part.Does t t' part' errors)
    (hAgrees : t.Agrees g tables scopes) (hFits : part.FitsAt t.stack.length)
    (hFresh : part.Fresh) :
    t'.Agrees g (tables ++ part.fieldTables t.store.length) (part'.enter scopes) ∧
      ∀ s ∈ part'.sites scopes, ¬ s.RepeatsFormal → s.TypesSettled errors := by
  have hKinds := hDoes.kinds hAgrees.kinds hFits
  cases hDoes with
  | opens => exact ⟨⟨hKinds, hAgrees.proper.push, hAgrees.mirrors.push⟩, List.forall_mem_nil _⟩
  | closes hStack =>
    exact ⟨⟨hKinds, hAgrees.proper.pop hStack, hAgrees.mirrors.pop hStack⟩, List.forall_mem_nil _⟩
  -- functions and formals have no struct type of their own that is looked at
  | @func k id id' result params t' errors hStack hDeclares =>
    have hMade := (hAgrees.proper.made k (hStack ▸ List.mem_cons_self)).2
    have hIn : DeclaredIn g k t id' [] t' errors :=
      (hDeclares.declaredIn hMade hFresh (by rintro ⟨⟩) (by rintro _ ⟨⟩)).1
    rw [fieldTables, List.append_nil] at hKinds ⊢
    exact ⟨hAgrees.declared hStack hIn hKinds,
      List.forall_mem_singleton.mpr fun _ => typesSettled_of_nil rfl⟩
  | @formal k rest f id' t' errors hStack hDeclares =>
    have hMade := (hAgrees.proper.made k (hStack ▸ List.mem_cons_self)).2
    have hIn : DeclaredIn g k t id' [] t' errors :=
      (hDeclares.declaredIn hMade hFresh (by rintro ⟨⟩) (by rintro _ ⟨⟩)).1
    rw [fieldTables, List.append_nil] at hKinds ⊢
    exact ⟨hAgrees.declared hStack hIn hKinds,
      List.forall_mem_singleton.mpr fun _ => typesSettled_of_nil rfl⟩
  | var hStack hOutcome | again hStack _ hOutcome =>
    rw [fieldTables, List.append_nil]
    exact hOutcome.settles_site hAgrees hStack hFresh
  | @repeated d hFormal =>
    rw [fieldTables, List.append_nil] at hKinds ⊢
    -- the name is that of a formal, so this is one of the excluded sites
    obtain ⟨k, rest, hStack⟩ := hAgrees.kinds.sound.exists_innermost
    rw [SymbolTable.lookupLocal, hStack] at hFormal
    have hIn : DeclaredIn g k t d.id d.type.idents t [.located .multiplyDeclared d.id.pos] :=
      .rejected hFresh (by decide) (List.mem_append_right _ List.mem_cons_self)
    exact ⟨hAgrees.declared hStack hIn hKinds, List.forall_mem_singleton.mpr fun hOther =>
      absurd (hAgrees.formal_site hStack hFormal rfl) hOther⟩
  | @struct k s id' fields' t₁ t₂ errors₁ errors₂ hStack hName hFields =>
    obtain ⟨hFreshName, hFreshFields⟩ := hFresh
    have hMade := (hAgrees.proper.made k (hStack ▸ List.mem_cons_self)).2
    have hIn : DeclaredIn g k t.newScope.2 id' [] t₁ errors₁ :=
      (hName.declaredIn (newScope_length t ▸ Nat.lt_succ_of_lt hMade) hFreshName (by rintro ⟨⟩)
        fun inside hInside => Option.some.inj hInside ▸ hAgrees.proper.length).1
    -- the field table is made first, then the name is declared, and then the fields
    have hNew : t.newScope.2.Agrees g (tables ++ [t.store.length]) scopes :=
      ⟨hAgrees.kinds.newScope, hAgrees.proper.newScope, hAgrees.mirrors.newScope⟩
    have hNamed := hNew.declared hStack hIn
      (hName.kinds hNew.kinds (hAgrees.kinds.admits_struct hStack))
    obtain ⟨hLast, hTypes⟩ := hFields.settles hNamed (List.mem_append_right _ List.mem_cons_self)
      hAgrees.proper.length hFreshFields
    refine ⟨hLast, List.forall_mem_cons.mpr ⟨fun _ => typesSettled_of_nil rfl, ?_⟩⟩
    intro s hs _ type hType
    obtain ⟨_, hNames, rfl⟩ := List.mem_map.mp hs
    obtain ⟨d, hd, rfl⟩ := List.mem_map.mp hNames
    exact (hTypes d hd type hType).mono (List.subset_append_right _ _)
  | use spot =>
    rw [fieldTables, List.append_nil] at hKinds ⊢
    refine ⟨⟨hKinds, hAgrees.proper, hAgrees.mirrors⟩, ?_⟩
    refine List.forall_mem_singleton.mpr fun _ => typesSettled_of_nil ?_
    cases spot with
    | declaration => cases hFresh
    | location | callee => rfl

/-- A run over well-nested parts settles the struct names in the types of all its parts. -/
theorem Run.settles {parts parts' : List Part} (hRun : Run t parts t' parts' errors)
    (hAgrees : t.Agrees g tables scopes) (hNested : WellNested t.stack.length parts)
    (hFresh : ∀ part ∈ parts, part.Fresh) :
    ∀ s ∈ partSites scopes parts', ¬ s.RepeatsFormal → s.TypesSettled errors := by
  induction hRun generalizing scopes tables with
  | nil t => exact List.forall_mem_nil _
  | @cons t t₁ t₂ part part' parts parts' errors₁ errors₂ hStep _ ih =>
    obtain ⟨hFits, hAfter⟩ := hNested
    obtain ⟨hFreshHead, hFreshRest⟩ := List.forall_mem_cons.mp hFresh
    rw [← hStep.depth_eq] at hAfter
    obtain ⟨hNext, hHead⟩ := hStep.settles hAgrees hFits hFreshHead
    rw [partSites, List.forall_mem_append]
    -- what is reported in one step is among the errors of the run
    exact ⟨fun s hs hOther type hType =>
        (hHead s hs hOther type hType).mono (List.subset_append_left _ _),
      fun s hs hOther type hType =>
        (ih hNext hAfter hFreshRest s hs hOther type hType).mono (List.subset_append_right _ _)⟩

/-- **Struct types.** An analysis of a fresh program does not fail. Take the type of a variable or a
field of the program, other than a variable of a function body that is named like a formal of the
function. If it is a struct, and the name of the struct stands for a struct in the scopes around it,
then the analysis puts the symbol of that struct on the name. If it does not, the name is reported
as that of no struct. -/
theorem struct_types_are_settled (a : Analyzer) {p : Program} (hFresh : p.Fresh) :
    ∃ q b, a.analyze p = .ok (q, b) ∧ q.bare = p.bare ∧
      ∀ s ∈ q.sites, ¬ s.RepeatsFormal → s.TypesSettled b.errors := by
  obtain ⟨q, b, hAnalyze, hBare, -⟩ := analyze_settles a hFresh
  obtain ⟨_, _, hAnalyze', hRun⟩ := analyze_runs a p
  obtain ⟨rfl, rfl⟩ := Prod.mk.inj (Except.ok.inj (hAnalyze'.symm.trans hAnalyze))
  refine ⟨_, _, hAnalyze, hBare, ?_⟩
  rw [← Program.partSites_eq]
  exact hRun.settles (.restart a.table) p.parts_wellNested hFresh.parts

/-- `struct P [struct P x. struct Q y.] void f[integer P][struct P z.]`, where `Q` is nothing, and
`P` stands for a struct inside of itself and for a formal inside of the function. -/
def shadowedStruct : Program :=
  ⟨[.struct ⟨⟨⟨1, 8⟩, "P", none⟩,
      [⟨.struct ⟨⟨1, 18⟩, "P", none⟩, ⟨⟨1, 20⟩, "x", none⟩, true⟩,
        ⟨.struct ⟨⟨1, 30⟩, "Q", none⟩, ⟨⟨1, 32⟩, "y", none⟩, true⟩]⟩,
    .func
      { result := .void
        id := ⟨⟨2, 6⟩, "f", none⟩
        formals := [⟨.integer, ⟨⟨2, 16⟩, "P", none⟩⟩]
        body := ⟨[⟨.struct ⟨⟨2, 26⟩, "P", none⟩, ⟨⟨2, 28⟩, "z", none⟩, false⟩], []⟩ }]⟩

/-- The hypothesis can be met: one type is good, and two are reported. -/
theorem shadowedStruct_types_settled :
    shadowedStruct.Fresh ∧
    (Analyzer.new.analyze shadowedStruct).toOption.map (fun answer => answer.2.errors) =
      some [.located .invalidStructType ⟨1, 30⟩, .located .invalidStructType ⟨2, 26⟩] ∧
    ∃ q b, Analyzer.new.analyze shadowedStruct = .ok (q, b) ∧ q.bare = shadowedStruct.bare ∧
      ∀ s ∈ q.sites, ¬ s.RepeatsFormal → s.TypesSettled b.errors := by
  have hFresh : shadowedStruct.Fresh := by
    unfold Program.Fresh
    decide
  exact ⟨hFresh, by decide +kernel, struct_types_are_settled Analyzer.new hFresh⟩

/-- `void f[integer x][struct P x.]`, where nothing declares `P`. -/
def repeatedFormal : Program :=
  ⟨[.func
    { result := .void
      id := ⟨⟨1, 6⟩, "f", none⟩
      formals := [⟨.integer, ⟨⟨1, 16⟩, "x", none⟩⟩]
      body := ⟨[⟨.struct ⟨⟨1, 26⟩, "P", none⟩, ⟨⟨1, 28⟩, "x", none⟩, false⟩], []⟩ }]⟩

/-- The type of a variable that is named like a formal is not settled: its name stands for nothing,
and nothing is reported. -/
theorem repeatedFormal_type_unsettled :
    repeatedFormal.Fresh ∧ ∃ q b, Analyzer.new.analyze repeatedFormal = .ok (q, b) ∧
      b.errors = [] ∧ ∃ s ∈ q.sites, ∃ type ∈ s.spot.typeNames,
        type.name = "P" ∧ s.scopes.find "P" = none ∧ ¬ s.TypesSettled b.errors := by
  have hFresh : repeatedFormal.Fresh := by
    unfold Program.Fresh
    decide
  have hSeen : (Analyzer.new.analyze repeatedFormal).toOption.map (fun answer =>
        (answer.2.errors, answer.1.sites.any fun s => s.spot.typeNames.any fun type =>
          type.name = "P" && s.scopes.find "P" = none)) = some ([], true) := by
    decide +kernel
  refine ⟨hFresh, ?_⟩
  obtain ⟨q, b, hAnalyze, -⟩ := analyze_runs Analyzer.new repeatedFormal
  rw [hAnalyze] at hSeen
  obtain ⟨hErrors, hSites⟩ := Prod.mk.inj (Option.some.inj hSeen)
  simp only [List.any_eq_true, Bool.and_eq_true, decide_eq_true_eq] at hSites
  obtain ⟨s, hs, type, hType, hName, hNone⟩ := hSites
  refine ⟨q, b, hAnalyze, hErrors, s, hs, type, hType, hName, hNone, fun hSettled => ?_⟩
  -- nothing is found, so it would have been reported
  have hReported := (hSettled type hType).reported (by rw [hName, hNone]; exact nofun)
  rw [hErrors] at hReported
  cases hReported

end NameResolution
