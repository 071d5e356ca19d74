import NameResolution.Proofs.Analysis.Settled
import NameResolution.Proofs.Analysis.Trace
import NameResolution.Tree.Printer

/-!
# Shown symbols — what can stand in the braces behind a name

A symbol is shown by the names of types, and these are words of the program or of the language. So
no symbol that an analysis puts on a use has a text with a closing brace in it, and the brace behind
that text is the next one.

* `Program.parts_typeNames` — the type names in the parts of a program.
* `SymbolTable.Shows` — the invariant: all meanings in new scopes are shown without such a brace.
* `Part.Does.shows`, `Run.shows` — a step and a run keep it.
* `analyze_shows` — the uses in an analyzed program.
-/

namespace NameResolution

open Analysis SymbolTable

variable {base k : ScopeId} {t t' : SymbolTable} {errors : List Diagnostic}

/-! ## Texts without a closing brace -/

/-- No closing brace is in the text. -/
def Braceless (s : String) : Prop :=
  '\x7d' ∉ s.toList

instance (s : String) : Decidable (Braceless s) :=
  inferInstanceAs (Decidable (¬ _))

theorem Braceless.append {s s' : String} (h : Braceless s) (h' : Braceless s') :
    Braceless (s ++ s') := by
  rw [Braceless, String.toList_append, List.mem_append, not_or]
  exact ⟨h, h'⟩

/-- Texts without a closing brace can be listed. -/
theorem Braceless.intercalate {sep : String} (hSep : Braceless sep) {items : List String}
    (h : ∀ item ∈ items, Braceless item) : Braceless (sep.intercalate items) := by
  induction items with
  | nil => exact List.not_mem_nil
  | cons item items ih =>
    obtain ⟨hFirst, hOthers⟩ := List.forall_mem_cons.mp h
    -- the separator stands between two items only
    cases items with
    | nil =>
      rw [String.intercalate_singleton]
      exact hFirst
    | cons next items =>
      rw [String.intercalate_cons_cons]
      exact (hFirst.append hSep).append (ih hOthers)

/-! ## Type names -/

/-- The names of the types in the declarations of a part. -/
def Part.typeNames : Part → List String
  | func _ result params => result :: params
  | formal f => [f.type.name]
  | var d | again d => [d.type.name]
  | struct s => s.fields.map fun d => d.type.name
  | opens | closes | use _ => []

/-- The basic types have no brace in their names. -/
theorem TypeRef.name_braceless (type : TypeRef) (h : ∀ id ∈ type.idents, Braceless id.name) :
    Braceless type.name := by
  cases type with
  | boolean | integer | void => decide
  | struct id => exact h id List.mem_cons_self

/-- The types of variables are shown without a brace if their names are. -/
theorem VarDecl.typeNames_braceless {ds : List VarDecl}
    (h : ∀ id ∈ ds.flatMap VarDecl.idents, Braceless id.name) : ∀ d ∈ ds, Braceless d.type.name :=
  fun d hd => d.type.name_braceless fun id hId =>
    h id (List.mem_flatMap.mpr ⟨d, hd, List.mem_append_left _ hId⟩)

/-- A use has no type. -/
theorem uses_typeNames (spots : List Spot) :
    ∀ part ∈ usesOf spots, ∀ name ∈ part.typeNames, Braceless name :=
  List.forall_mem_map.mpr fun _ _ => List.forall_mem_nil _

/-- A scope around some parts adds no type. -/
theorem nested_typeNames {parts : List Part}
    (h : ∀ part ∈ parts, ∀ name ∈ part.typeNames, Braceless name) :
    ∀ part ∈ nested parts, ∀ name ∈ part.typeNames, Braceless name :=
  List.forall_mem_cons.mpr ⟨List.forall_mem_nil _,
    List.forall_mem_append.mpr ⟨h, List.forall_mem_singleton.mpr (List.forall_mem_nil _)⟩⟩

/-- The types of the variables of a function body, repeated ones included. -/
theorem localParts_typeNames (seen : List String) {ds : List VarDecl}
    (h : ∀ d ∈ ds, Braceless d.type.name) :
    ∀ part ∈ localParts seen ds, ∀ name ∈ part.typeNames, Braceless name := by
  induction ds generalizing seen with
  | nil => exact List.forall_mem_nil _
  | cons d ds ih =>
    obtain ⟨hFirst, hOthers⟩ := List.forall_mem_cons.mp h
    refine List.forall_mem_cons.mpr ⟨?_, ih _ hOthers⟩
    split <;> exact List.forall_mem_singleton.mpr hFirst

/-- The types in a block are those of its variables and those in its statements. -/
theorem blockParts_typeNames {decls : List VarDecl} {parts : List Part}
    (hDecls : ∀ id ∈ decls.flatMap VarDecl.idents, Braceless id.name)
    (hParts : ∀ part ∈ parts, ∀ name ∈ part.typeNames, Braceless name) :
    ∀ part ∈ nested (decls.map .var ++ parts), ∀ name ∈ part.typeNames, Braceless name := by
  refine nested_typeNames (List.forall_mem_append.mpr ⟨List.forall_mem_map.mpr ?_, hParts⟩)
  intro d hd
  exact List.forall_mem_singleton.mpr (VarDecl.typeNames_braceless hDecls d hd)

mutual

/-- The types in a statement are named by its identifiers. -/
theorem Stmt.parts_typeNames : (s : Stmt) → (∀ id ∈ s.idents, Braceless id.name) →
    ∀ part ∈ s.parts, ∀ name ∈ part.typeNames, Braceless name
  -- uses have no types, so only the variables in blocks count
  | .assign target value, _ => uses_typeNames (.location target :: value.spots)
  | .increment target, _ | .decrement target, _ | .read target, _ =>
    uses_typeNames [.location target]
  | .write value, _ | .ret (some value), _ => uses_typeNames value.spots
  | .ret none, _ => List.forall_mem_nil _
  | .call callee args, _ => uses_typeNames (.callee callee :: Expr.spotsAll args)
  | .ifThen cond ⟨decls, stmts⟩, h | .loop cond ⟨decls, stmts⟩, h => by
    obtain ⟨hHead, hStmts⟩ := List.forall_mem_append.mp h
    exact List.forall_mem_append.mpr ⟨uses_typeNames cond.spots,
      blockParts_typeNames (List.forall_mem_append.mp hHead).2
        (Stmt.partsAll_typeNames stmts hStmts)⟩
  | .ifElse cond ⟨decls, stmts⟩ ⟨elseDecls, elseStmts⟩, h => by
    obtain ⟨hFront, hElseStmts⟩ := List.forall_mem_append.mp h
    obtain ⟨hThen, hElseDecls⟩ := List.forall_mem_append.mp hFront
    obtain ⟨hHead, hStmts⟩ := List.forall_mem_append.mp hThen
    exact List.forall_mem_append.mpr ⟨uses_typeNames cond.spots,
      List.forall_mem_append.mpr
        ⟨blockParts_typeNames (List.forall_mem_append.mp hHead).2
            (Stmt.partsAll_typeNames stmts hStmts),
          blockParts_typeNames hElseDecls (Stmt.partsAll_typeNames elseStmts hElseStmts)⟩⟩

theorem Stmt.partsAll_typeNames : (ss : List Stmt) → (∀ id ∈ Stmt.identsAll ss, Braceless id.name) →
    ∀ part ∈ Stmt.partsAll ss, ∀ name ∈ part.typeNames, Braceless name
  | [], _ => List.forall_mem_nil _
  | s :: ss, h => by
    obtain ⟨hFirst, hOthers⟩ := List.forall_mem_append.mp h
    exact List.forall_mem_append.mpr
      ⟨Stmt.parts_typeNames s hFirst, Stmt.partsAll_typeNames ss hOthers⟩

end

/-- The types in a function are named by its identifiers. -/
theorem FuncDecl.parts_typeNames (f : FuncDecl) (h : ∀ id ∈ f.idents, Braceless id.name) :
    ∀ part ∈ f.parts, ∀ name ∈ part.typeNames, Braceless name := by
  obtain ⟨hSignature, hBody⟩ := List.forall_mem_append.mp h
  obtain ⟨hHead, hFormals⟩ := List.forall_mem_append.mp hSignature
  obtain ⟨hDecls, hStmts⟩ := List.forall_mem_append.mp hBody
  -- the formals give types twice, in the signature and as variables
  have hTypes : ∀ formal ∈ f.formals, Braceless formal.type.name := fun formal hFormal =>
    formal.type.name_braceless fun id hId =>
      hFormals id (List.mem_flatMap.mpr ⟨formal, hFormal, List.mem_append_left _ hId⟩)
  refine List.forall_mem_cons.mpr ⟨List.forall_mem_cons.mpr ⟨?_, List.forall_mem_map.mpr hTypes⟩,
    nested_typeNames (List.forall_mem_append.mpr ⟨List.forall_mem_map.mpr ?_,
      List.forall_mem_append.mpr ⟨?_, Stmt.partsAll_typeNames _ hStmts⟩⟩)⟩
  · exact f.result.name_braceless (List.forall_mem_append.mp hHead).1
  · exact fun formal hFormal => List.forall_mem_singleton.mpr (hTypes formal hFormal)
  · exact localParts_typeNames [] (VarDecl.typeNames_braceless hDecls)

/-- The type names in the parts of a program are those of the basic types, and names of the
program. -/
theorem Program.parts_typeNames (p : Program) (h : ∀ id ∈ p.idents, Braceless id.name) :
    ∀ part ∈ p.parts, ∀ name ∈ part.typeNames, Braceless name := by
  intro part hPart
  obtain ⟨d, hd, hPart⟩ := List.mem_flatMap.mp hPart
  have hIdents : ∀ id ∈ d.idents, Braceless id.name := fun id hId =>
    h id (List.mem_flatMap.mpr ⟨d, hd, hId⟩)
  -- the types of a declaration are part of it, and struct names in them are identifiers of the
  -- program
  cases d with
  | var d =>
    obtain rfl := List.mem_singleton.mp hPart
    exact List.forall_mem_singleton.mpr
      (d.type.name_braceless (List.forall_mem_append.mp hIdents).1)
  | func f => exact f.parts_typeNames hIdents part hPart
  | struct s =>
    obtain rfl := List.mem_singleton.mp hPart
    exact List.forall_mem_map.mpr
      (VarDecl.typeNames_braceless (List.forall_mem_cons.mp hIdents).2)

/-! ## Tables -/

/-- The meaning is shown without a closing brace, and the fields of a struct are in a scope from
`base` on. -/
structure Meaning.Showable (base : ScopeId) (m : Meaning) : Prop where
  text : Braceless m.text
  fields : ∀ inside, m.fields? = some inside → base ≤ inside

/-- A formal is shown by its type. -/
theorem Meaning.formal_showable {type : String} (h : Braceless type) :
    (Meaning.formal type).Showable base :=
  ⟨h, nofun⟩

/-- A struct is shown by its name only. -/
theorem Meaning.structDecl_showable {inside : ScopeId} (h : base ≤ inside) :
    (Meaning.structDecl inside).Showable base where
  text := by
    show Braceless "struct-decl"
    decide
  fields := by
    rintro _ ⟨⟩
    exact h

/-- A function is shown by its signature. -/
theorem Meaning.function_showable {result : String} {params : List String}
    (hResult : Braceless result) (hParams : ∀ param ∈ params, Braceless param) :
    (Meaning.function result params).Showable base where
  text := by
    have hComma : Braceless ", " := by decide
    have hArrow : Braceless " -> " := by decide
    show Braceless (signature result params)
    rw [signature]
    refine (Braceless.append ?_ hArrow).append hResult
    -- without parameters the signature shows one fixed word
    split
    · decide
    · exact hComma.intercalate hParams
  fields := nofun

/-- The open scopes were made from number `base` on, and what these and all later ones hold can be
shown. -/
structure SymbolTable.Shows (base : ScopeId) (t : SymbolTable) : Prop where
  length : base ≤ t.store.length
  stack : ∀ k ∈ t.stack, base ≤ k
  meanings : ∀ k name symbol, base ≤ k → (t.scope k).lookup name = some symbol →
    symbol.meaning.Showable base

namespace SymbolTable.Shows

/-- A table that starts over holds nothing from its number on. -/
theorem restart (t : SymbolTable) : t.restart.Shows t.store.length where
  length := by simp
  stack k hk := by
    rw [restart_stack, List.mem_singleton] at hk
    exact Nat.le_of_eq hk.symm
  meanings k name symbol hk h := by
    rw [restart_scope, scope_of_length_le hk] at h
    cases h

theorem newScope (h : t.Shows base) : t.newScope.2.Shows base where
  length := by
    rw [newScope_length]
    exact Nat.le_succ_of_le h.length
  stack := h.stack
  meanings k name symbol hk hFound := h.meanings k name symbol hk (newScope_scope t k ▸ hFound)

theorem push (h : t.Shows base) : t.push.2.Shows base where
  length := h.newScope.length
  stack := List.forall_mem_cons.mpr ⟨h.length, h.stack⟩
  meanings := h.newScope.meanings

/-- What a name stands for can be shown. -/
theorem lookup (h : t.Shows base) {name : String} {symbol : Symbol}
    (hFound : t.lookup name = some symbol) : symbol.meaning.Showable base := by
  obtain ⟨k, hk, hBound⟩ := List.exists_of_findSome?_eq_some hFound
  exact h.meanings k name symbol (h.stack k hk) hBound

/-- The symbol of a field can be shown. -/
theorem access (h : t.Shows base) {left symbol : Symbol} {field : String}
    (hFound : t.access left field = .found symbol) : symbol.meaning.Showable base := by
  obtain ⟨type, struct, inside, -, hStruct, hInside, hBound⟩ := access_eq_found hFound
  have hShown := h.lookup (Option.filter_eq_some_iff.mp hStruct).1
  exact h.meanings inside field symbol (hShown.fields inside hInside) hBound

end SymbolTable.Shows

/-! ## Declarations -/

/-- A declaration whose meaning can be shown keeps the table so. -/
theorem Declares.shows {id id' : Ident} {meaning : Meaning} (h : t.Shows base)
    (hMeaning : meaning.Showable base) (hDeclares : Declares k id meaning t id' t' errors) :
    t'.Shows base := by
  cases hDeclares with
  | taken => exact h
  | bound hBound =>
    -- a scope that was never made takes no declarations
    rcases Nat.lt_or_ge k t.store.length with hMade | hNone
    · exact
        { length := by
            rw [declareIn_length hBound]
            exact h.length
          stack := by
            rw [(declareIn_eq_some hBound).2.1]
            exact h.stack
          meanings := fun j name symbol hj hFound => by
            rcases (lookup_declareIn hMade hBound).mp hFound with hOld | ⟨-, -, rfl⟩
            · exact h.meanings j name symbol hj hOld
            · exact hMeaning }
    · rw [declareIn_eq_self hNone hBound]
      exact h

/-- A variable is shown by its type. -/
theorem TypeRef.Gives.showable {type type' : TypeRef} {meaning : Meaning}
    (h : TypeRef.Gives t type type' meaning) (hType : Braceless type.name) :
    meaning.Showable base := by
  cases h <;> exact ⟨hType, nofun⟩

/-- A variable or a field keeps the table so. -/
theorem VarDecl.Outcome.shows {d d' : VarDecl} (h : t.Shows base) (hType : Braceless d.type.name)
    (hOutcome : d.Outcome t k d' t' errors) : t'.Shows base := by
  cases hOutcome with
  | formal | void | noStruct => exact h
  | typed _ hGives hDeclares => exact hDeclares.shows h (hGives.showable hType)

theorem Outcomes.shows {ds ds' : List VarDecl} (h : t.Shows base)
    (hTypes : ∀ d ∈ ds, Braceless d.type.name) (hOutcomes : Outcomes k t ds t' ds' errors) :
    t'.Shows base := by
  induction hOutcomes with
  | nil t => exact h
  | cons hHead _ ih =>
    obtain ⟨hFirst, hOthers⟩ := List.forall_mem_cons.mp hTypes
    exact ih (hHead.shows h hFirst) hOthers

/-! ## Uses -/

/-- If the name carries a symbol, that is shown without a closing brace. -/
def Ident.Shown (id : Ident) : Prop :=
  ∀ symbol, id.symbol? = some symbol → Braceless symbol.text

theorem Symbol.undefined_braceless : Braceless Symbol.undefined.text := by decide

/-- A name with a symbol that can be shown is shown without a brace. -/
theorem Ident.shown_bind (id : Ident) {symbol : Symbol} (h : Braceless symbol.text) :
    (id.bind symbol).Shown := by
  rintro _ ⟨⟩
  exact h

/-- Every name of a use can be shown. -/
theorem Ident.annotate_shown (h : t.Shows base) (id : Ident) : (id.annotate t).Shown := by
  refine id.shown_bind ?_
  rw [SymbolTable.denote]
  cases hLookup : t.lookup id.name with
  | none => exact Symbol.undefined_braceless
  | some symbol => exact (h.lookup hLookup).text

theorem Loc.annotate_shown (h : t.Shows base) (l : Loc) :
    ∀ id ∈ (l.annotate t).idents, id.Shown := by
  induction l with
  | var id => exact List.forall_mem_singleton.mpr (id.annotate_shown h)
  | field left id ih =>
    refine List.forall_mem_append.mpr ⟨ih, List.forall_mem_singleton.mpr (id.shown_bind ?_)⟩
    rw [Loc.denote]
    rcases t.access_symbol_cases (left.denote t) id.name with hUndefined | hFound
    · rw [hUndefined]
      exact Symbol.undefined_braceless
    · exact (h.access hFound).text

theorem Spot.annotate_shown (h : t.Shows base) (spot : Spot) :
    ∀ id ∈ (spot.annotate t).used, id.Shown := by
  cases spot with
  | declaration id typeNames => exact List.forall_mem_nil _
  | location l => exact l.annotate_shown h
  | callee id => exact List.forall_mem_singleton.mpr (id.annotate_shown h)

/-! ## Steps and runs -/

/-- The symbols on the names that the part uses are shown without a closing brace. -/
def Part.Shown : Part → Prop
  | use spot => ∀ id ∈ spot.used, id.Shown
  | opens | closes | func _ _ _ | formal _ | var _ | again _ | struct _ => True

/-- A step keeps the table so, and its own names can be shown. -/
theorem Part.Does.shows {part part' : Part} (h : t.Shows base)
    (hTypes : ∀ name ∈ part.typeNames, Braceless name)
    (hDoes : part.Does t t' part' errors) : t'.Shows base ∧ part'.Shown := by
  cases hDoes with
  | opens => exact ⟨h.push, trivial⟩
  | closes hStack =>
    refine ⟨⟨h.length, fun j hj => h.stack j ?_, h.meanings⟩, trivial⟩
    rw [hStack]
    exact List.mem_cons_of_mem _ hj
  | func _ hDeclares =>
    obtain ⟨hResult, hParams⟩ := List.forall_mem_cons.mp hTypes
    exact ⟨hDeclares.shows h (Meaning.function_showable hResult hParams), trivial⟩
  | formal _ hDeclares =>
    exact ⟨hDeclares.shows h (Meaning.formal_showable (hTypes _ List.mem_cons_self)), trivial⟩
  | var _ hOutcome | again _ _ hOutcome =>
    exact ⟨hOutcome.shows h (hTypes _ List.mem_cons_self), trivial⟩
  | repeated => exact ⟨h, trivial⟩
  | struct _ hName hFields =>
    -- the scope of the fields is the next one, so its number is not below `base`
    have hStruct := Meaning.structDecl_showable h.length
    exact ⟨hFields.shows (hName.shows h.newScope hStruct) (List.forall_mem_map.mp hTypes), trivial⟩
  | use spot => exact ⟨h, spot.annotate_shown h⟩

/-- All names of a run can be shown. -/
theorem Run.shows {parts parts' : List Part} (h : t.Shows base)
    (hTypes : ∀ part ∈ parts, ∀ name ∈ part.typeNames, Braceless name)
    (hRun : Run t parts t' parts' errors) : ∀ part ∈ parts', part.Shown := by
  induction hRun with
  | nil t => exact List.forall_mem_nil _
  | cons hStep _ ih =>
    obtain ⟨hFirst, hOthers⟩ := List.forall_mem_cons.mp hTypes
    obtain ⟨hTable, hPart⟩ := hStep.shows h hFirst
    exact List.forall_mem_cons.mpr ⟨hPart, ih hTable hOthers⟩

/-- Where the names of a program hold no closing brace, the symbols that an analysis puts on its
uses are shown without one. -/
theorem analyze_shows (a : Analyzer) {p : Program} (hNames : ∀ id ∈ p.idents, Braceless id.name) :
    ∃ q b, a.analyze p = .ok (q, b) ∧ ∀ part ∈ q.parts, part.Shown := by
  obtain ⟨q, b, hAnalyze, hRun⟩ := analyze_runs a p
  exact ⟨q, b, hAnalyze, hRun.shows (.restart a.table) (p.parts_typeNames hNames)⟩

end NameResolution
