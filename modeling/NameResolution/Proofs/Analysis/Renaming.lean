import NameResolution.Proofs.Analysis.RenamedTables
import NameResolution.Proofs.Analysis.Walk

/-!
# Renaming — an analysis of a program and of the renamed program

No name is special to the analysis, and the names of fields never meet those of variables,
functions and structs. So a program can be given other names in each of the two namespaces. As long
as different names stay different, its analysis reports the same errors and makes the same
connections between uses and declarations.

* `Stmt.resolve_renamed`, `Decl.resolve_renamed` — a walk and the renamed walk keep in step.
* `renaming_keeps_bindings` — a whole analysis.
-/

namespace NameResolution

open Analysis SymbolTable

variable {α : Type} {ρ : Renaming} {w : ScopeKinds} {k : ScopeId} {kind : NameKind}

/-! ## Uses -/

/-- A name and the renamed one are used in step. -/
theorem useIdent_renamed {id : Ident} (hName : ρ.known .lexical id.name) :
    InStep (Renamed ρ) w (useIdent id) (useIdent (id.rename (ρ.map .lexical)))
      (Ident.Tracks ρ) :=
  fun w' _ t u h => ⟨w', _, t, _, u, id.diagnose t, le_rfl, useIdent_yields id t,
    id.diagnose_renamed h hName ▸ useIdent_yields _ u, h, rfl, id.annotate_tracks h hName⟩

/-- A location and the renamed one are used in step. -/
theorem useLoc_renamed {l : Loc} (hNames : ρ.Covers l.occurrences) :
    InStep (Renamed ρ) w (useLoc l) (useLoc (l.rename ρ.map)) (Tracked ρ Loc.idents) :=
  fun w' _ t u h => ⟨w', _, t, _, u, l.diagnose t, le_rfl, useLoc_yields l t,
    l.diagnose_renamed h hNames ▸ useLoc_yields _ u, h, rfl, l.annotate_tracks h hNames⟩

/-- An expression and the renamed one are used in step. -/
theorem useExpr_renamed {e : Expr} (hNames : ρ.Covers e.occurrences) :
    InStep (Renamed ρ) w (useExpr e) (useExpr (e.rename ρ.map)) (Tracked ρ Expr.idents) :=
  fun w' _ t u h => ⟨w', _, t, _, u, e.diagnose t, le_rfl, useExpr_yields e t,
    e.diagnose_renamed h hNames ▸ useExpr_yields _ u, h, rfl, e.annotate_tracks h hNames⟩

/-- Expressions and the renamed ones are used in step. -/
theorem useExprs_renamed {es : List Expr} (hNames : ρ.Covers (Expr.occurrencesAll es)) :
    InStep (Renamed ρ) w (useExprs es) (useExprs (Expr.renameAll ρ.map es))
      (Tracked ρ Expr.identsAll) :=
  fun w' _ t u h => ⟨w', _, t, _, u, Expr.diagnoseAll t es, le_rfl, useExprs_yields es t,
    Expr.diagnoseAll_renamed h es hNames ▸ useExprs_yields _ u, h, rfl,
    Expr.annotateAll_tracks h es hNames⟩

/-! ## Declarations -/

/-- Identifiers that a walk leaves as they are. -/
theorem Renaming.Covers.tracks {o : Occurrence} {os : List Occurrence} (h : ρ.Covers os)
    (ho : o ∈ os) : o.id.Tracks ρ w (o.rename ρ.map) :=
  .unbound (h o ho).1 (h o ho).1

/-- The type of a declaration that a walk does not look at. -/
theorem TypeRef.tracks {type : TypeRef} (h : ρ.Covers (lexicalOccurrences type.idents)) :
    Tracked ρ TypeRef.idents w type (type.rename ρ.map) := by
  cases type with
  | boolean | integer | void => exact .nil
  | struct id => exact .cons (h.tracks List.mem_cons_self) .nil

/-- A name and the renamed one are both accepted or both refused. -/
theorem declare_renamed {id : Ident} {meaning meaning' : Meaning} (hk : w k = some kind)
    (hName : ρ.known kind id.name) (hFresh : id.symbol? = none)
    (hMeaning : Meaning.Counterpart ρ w meaning meaning') :
    InStep (Renamed ρ) w (declare k id meaning) (declare k (id.rename (ρ.map kind)) meaning')
      (Ident.Tracks ρ) := by
  intro w' hMore t u h
  have hSymbol := (Symbol.Counterpart.declared hk hName hMeaning).mono hMore
  have hBoth := h.declareIn (hMore k kind hk) hName hSymbol
  refine .getTable ?_
  simp only [Ident.rename]
  -- the renamed declaration fares as the declaration does
  cases hDeclared : t.declareIn k id.name ⟨.declared k id.name, meaning⟩ with
  | none =>
    rw [hDeclared] at hBoth
    generalize u.declareIn k (ρ.map kind id.name) _ = b at hBoth
    cases hBoth
    exact .report _ (.pure h (.unbound hFresh hFresh))
  | some t' =>
    rw [hDeclared] at hBoth
    generalize u.declareIn k (ρ.map kind id.name) _ = b at hBoth
    cases hBoth with
    | some hRenamed =>
      exact ⟨w', _, t', _, _, [], le_rfl, (setTable_yields t t').bind_silent (Yields.pure _ t'),
        (setTable_yields u _).bind_silent (Yields.pure _ _), hRenamed,
        (declareIn_eq_some hDeclared).2.1, .bind _ _ (.declared hSymbol)⟩

/-- Parts of the walk that look at the innermost scope, in which the names are lexical ones. -/
theorem InStep.innermost {β : Type} {agree : ScopeKinds → α → β → Prop}
    {next : ScopeId → Resolve α} {next' : ScopeId → Resolve β}
    (h : ∀ w', w ≤ w' → ∀ k, w' k = some .lexical →
      InStep (Renamed ρ) w' (next k) (next' k) agree) :
    InStep (Renamed ρ) w (currentScope >>= next) (currentScope >>= next') agree := by
  intro w' hMore t u hRelated
  obtain ⟨k, rest, hStack⟩ := List.exists_cons_of_ne_nil hRelated.opened
  have hLexical := hRelated.lexical k (hStack ▸ List.mem_cons_self)
  exact .currentScope (Renamed.keepsScopes ρ) hStack hRelated
    (h w' hMore k hLexical w' le_rfl t u hRelated)

theorem declareHere_renamed {id : Ident} {meaning meaning' : Meaning}
    (hName : ρ.known .lexical id.name) (hFresh : id.symbol? = none)
    (hMeaning : Meaning.Counterpart ρ w meaning meaning') :
    InStep (Renamed ρ) w (declareHere id meaning)
      (declareHere (id.rename (ρ.map .lexical)) meaning') (Ident.Tracks ρ) :=
  .innermost fun _ hMore _ hk => declare_renamed hk hName hFresh (hMeaning.mono hMore)

/-- Both walks make a scope, whose kind is noted. -/
theorem newScope_renamed (kind : NameKind) :
    InStep (Renamed ρ) w newScope newScope fun w k k' => k = k' ∧ w k = some kind :=
  fun w' _ t u h => ⟨w'.make t.store.length kind, _, _, _, _, [],
    ScopeKinds.le_make (h.unmade _ (Nat.le_refl _)) kind, newScope_yields t,
    h.length ▸ newScope_yields u, h.newScope kind, rfl, rfl, if_pos rfl⟩

/-- A variable or a field and the renamed one are declared in step. -/
theorem VarDecl.resolveIn_renamed {d : VarDecl} (hk : w k = some kind)
    (hNames : ρ.Covers (d.occurrences kind)) :
    InStep (Renamed ρ) w (d.resolveIn k) ((d.rename ρ.map kind).resolveIn k)
      (Tracked ρ VarDecl.idents) := by
  obtain ⟨type, id, isField⟩ := d
  obtain ⟨hType, hId⟩ := Renaming.Covers.append.mp hNames
  obtain ⟨hFresh, hName⟩ := hId ⟨kind, id⟩ List.mem_cons_self
  -- a variable that is refused keeps its names, which track each other from the start
  have hUntouched : ∀ w', Tracked ρ VarDecl.idents w' ⟨type, id, isField⟩
      ((VarDecl.mk type id isField).rename ρ.map kind) :=
    fun w' => List.rel_append (TypeRef.tracks hType) (.cons (hId.tracks List.mem_cons_self) .nil)
  intro w' hMore t u h
  have hFormal := rel_filter (h.scopes (hMore k kind hk) hName)
    fun _ _ hBoth => hBoth.isFormal_eq
  refine .getTable ?_
  simp only [VarDecl.rename, Ident.rename]
  generalize ((t.scope k).lookup id.name).filter Symbol.isFormal = a,
    ((u.scope k).lookup (ρ.map kind id.name)).filter Symbol.isFormal = b at hFormal
  -- a formal of the name, or else the type decides
  cases hFormal with
  | some hBoth =>
    refine .pure h (List.rel_append (TypeRef.tracks hType) (.cons ?_ .nil))
    exact .bind _ _ (.declared hBoth)
  | none =>
    cases type with
    | void => exact .report _ (.pure h (hUntouched w'))
    | boolean | integer =>
      exact (declare_renamed (hMore k kind hk) hName hFresh (.regular _)).bind_pure
        (fun _ _ _ _ hTracks => .cons hTracks .nil) w' le_rfl t u h
    | struct structId =>
      have hStructName := (hType ⟨.lexical, structId⟩ List.mem_cons_self).2
      have hStruct := h.lookupStruct hStructName
      simp only [TypeRef.rename, Ident.rename]
      generalize t.lookupStruct structId.name = a,
        u.lookupStruct (ρ.map .lexical structId.name) = b at hStruct
      cases hStruct with
      | none => exact .report _ (.pure h (hUntouched w'))
      | some hBoth =>
        refine (declare_renamed (hMore k kind hk) hName hFresh (.structVar hStructName)).bind_pure
          (fun w'' hLater _ _ hTracks => ?_) w' le_rfl t u h
        exact .cons (.bind _ _ (.declared (hBoth.mono hLater))) (.cons hTracks .nil)

/-- A variable and the renamed one are declared in step. -/
theorem VarDecl.resolve_renamed {d : VarDecl} (hNames : ρ.Covers (d.occurrences .lexical)) :
    InStep (Renamed ρ) w d.resolve (d.rename ρ.map .lexical).resolve
      (Tracked ρ VarDecl.idents) :=
  .innermost fun _ _ _ hk => d.resolveIn_renamed hk hNames

/-- A formal and the renamed one are declared in step. -/
theorem Formal.resolve_renamed {f : Formal} (hNames : ρ.Covers f.occurrences) :
    InStep (Renamed ρ) w f.resolve (f.rename ρ.map).resolve (Tracked ρ Formal.idents) := by
  obtain ⟨type, id⟩ := f
  obtain ⟨hFresh, hName⟩ :=
    hNames ⟨.lexical, id⟩ (List.mem_map_of_mem (List.mem_append_right _ List.mem_cons_self))
  have hType : ρ.Covers (lexicalOccurrences type.idents) := fun o ho =>
    hNames o (List.map_subset _ (List.subset_append_left _ _) ho)
  exact (declareHere_renamed hName hFresh (.formal _ _)).bind_pure
    fun _ _ _ _ hTracks => List.rel_append (TypeRef.tracks hType) (.cons hTracks .nil)

/-! ## Statements -/

/-- The head and the tail of a list, one after the other. -/
theorem InStep.cons {first first' : Resolve α} {rest rest' : Resolve (List α)}
    {idents : α → List Ident} (h : InStep (Renamed ρ) w first first' (Tracked ρ idents))
    (hRest : InStep (Renamed ρ) w rest rest' (Tracked ρ (List.flatMap idents))) :
    InStep (Renamed ρ) w (first >>= fun x => rest >>= fun xs => Pure.pure (x :: xs))
      (first' >>= fun x => rest' >>= fun xs => Pure.pure (x :: xs))
      (Tracked ρ (List.flatMap idents)) :=
  h.both Tracked.lasting hRest fun _ _ _ _ _ _ hHead hTail => List.rel_append hHead hTail

/-- The same part of a renamed walk for each member of a list. -/
theorem InStep.members {step : α → Resolve α} {rename : α → α} {idents : α → List Ident}
    {occurrences : α → List Occurrence} {xs : List α} (hNames : ρ.Covers (xs.flatMap occurrences))
    (h : ∀ x, ρ.Covers (occurrences x) →
      InStep (Renamed ρ) w (step x) (step (rename x)) (Tracked ρ idents)) :
    InStep (Renamed ρ) w (xs.mapM step) ((xs.map rename).mapM step)
      (Tracked ρ (List.flatMap idents)) := by
  induction xs with
  | nil => exact .pure fun _ _ => .nil
  | cons x xs ih =>
    obtain ⟨hHead, hRest⟩ := Renaming.Covers.append.mp hNames
    rw [List.map_cons, List.mapM_cons, List.mapM_cons]
    exact (h x hHead).cons (ih hRest)

/-- A block and the renamed one are walked through in step if their statements are. -/
theorem inBlock_renamed {decls : List VarDecl} {stmts stmts' : Resolve (List Stmt)}
    (hNames : ρ.Covers (decls.flatMap (VarDecl.occurrences .lexical)))
    (h : InStep (Renamed ρ) w stmts stmts' (Tracked ρ Stmt.identsAll)) :
    InStep (Renamed ρ) w (inBlock decls stmts)
      (inBlock (decls.map (VarDecl.rename ρ.map .lexical)) stmts')
      (Tracked ρ Block.idents) := by
  refine .inScope (Renamed.keepsScopes ρ) ?_
  exact (InStep.members hNames fun d hd => d.resolve_renamed hd).both Tracked.lasting h
    fun _ _ _ _ _ _ hDecls hStmts => List.rel_append hDecls hStmts

mutual

/-- A statement and the renamed one are walked through in step. What is known of the first parts
has to last until the later ones are through. -/
theorem Stmt.resolve_renamed : (s : Stmt) → ρ.Covers s.occurrences →
    InStep (Renamed ρ) w s.resolve (s.rename ρ.map).resolve (Tracked ρ Stmt.idents)
  | .assign target value, hNames => by
    obtain ⟨hTarget, hValue⟩ := Renaming.Covers.append.mp hNames
    rw [Stmt.rename, Stmt.resolve, Stmt.resolve]
    exact (useLoc_renamed hTarget).both Tracked.lasting (useExpr_renamed hValue)
      fun _ _ _ _ _ _ hLeft hRight => List.rel_append hLeft hRight
  | .increment target, hNames | .decrement target, hNames | .read target, hNames => by
    rw [Stmt.rename, Stmt.resolve, Stmt.resolve]
    exact (useLoc_renamed hNames).bind_pure fun _ _ _ _ h => h
  | .write value, hNames | .ret (some value), hNames => by
    rw [Stmt.rename, Stmt.resolve, Stmt.resolve]
    exact (useExpr_renamed hNames).bind_pure fun _ _ _ _ h => h
  -- the world grows between callee and arguments, so what was known of the callee is carried on
  | .call callee args, hNames => by
    obtain ⟨hCallee, hArgs⟩ := Renaming.Covers.cons.mp hNames
    rw [Stmt.rename, Stmt.resolve, Stmt.resolve]
    exact (useIdent_renamed hCallee.2).both (fun hMore _ _ h => h.mono hMore)
      (useExprs_renamed hArgs) fun _ _ _ _ _ _ hHead hTail => .cons hHead hTail
  | .ret none, _ => by
    rw [Stmt.rename, Stmt.resolve]
    exact .pure fun _ _ => .nil
  | .ifThen cond ⟨decls, stmts⟩, hNames => by
    obtain ⟨hHead, hStmts⟩ := Renaming.Covers.append.mp hNames
    obtain ⟨hCond, hDecls⟩ := Renaming.Covers.append.mp hHead
    rw [Stmt.rename, Stmt.resolve, Stmt.resolve]
    refine (useExpr_renamed hCond).both Tracked.lasting
      (inBlock_renamed hDecls (Stmt.resolveAll_renamed stmts hStmts))
      fun _ _ _ _ _ _ hLeft hBody => ?_
    rw [Tracked, Stmt.idents_ifThen, Stmt.idents_ifThen]
    exact List.rel_append hLeft hBody
  -- four lists of names: the condition, and for each block its variables and its statements
  | .ifElse cond ⟨decls, stmts⟩ ⟨elseDecls, elseStmts⟩, hNames => by
    obtain ⟨hFront, hElseStmts⟩ := Renaming.Covers.append.mp hNames
    obtain ⟨hThen, hElseDecls⟩ := Renaming.Covers.append.mp hFront
    obtain ⟨hHead, hStmts⟩ := Renaming.Covers.append.mp hThen
    obtain ⟨hCond, hDecls⟩ := Renaming.Covers.append.mp hHead
    rw [Stmt.rename, Stmt.resolve, Stmt.resolve]
    have hBody := inBlock_renamed hDecls (Stmt.resolveAll_renamed stmts hStmts)
    have hElse := inBlock_renamed hElseDecls (Stmt.resolveAll_renamed elseStmts hElseStmts)
    refine (useExpr_renamed hCond).bind fun _ hMore _ _ hLeft =>
      (hBody.mono hMore).both Tracked.lasting (hElse.mono hMore)
        fun _ hLater _ _ _ _ hBlock hOther => ?_
    rw [Tracked, Stmt.idents_ifElse, Stmt.idents_ifElse]
    exact List.rel_append (List.rel_append (Tracked.lasting hLater _ _ hLeft) hBlock) hOther
  | .loop cond ⟨decls, stmts⟩, hNames => by
    obtain ⟨hHead, hStmts⟩ := Renaming.Covers.append.mp hNames
    obtain ⟨hCond, hDecls⟩ := Renaming.Covers.append.mp hHead
    rw [Stmt.rename, Stmt.resolve, Stmt.resolve]
    refine (useExpr_renamed hCond).both Tracked.lasting
      (inBlock_renamed hDecls (Stmt.resolveAll_renamed stmts hStmts))
      fun _ _ _ _ _ _ hLeft hBody => ?_
    rw [Tracked, Stmt.idents_loop, Stmt.idents_loop]
    exact List.rel_append hLeft hBody

theorem Stmt.resolveAll_renamed : (ss : List Stmt) → ρ.Covers (Stmt.occurrencesAll ss) →
    InStep (Renamed ρ) w (Stmt.resolveAll ss) (Stmt.resolveAll (Stmt.renameAll ρ.map ss))
      (Tracked ρ Stmt.identsAll)
  | [], _ => .pure fun _ _ => .nil
  | s :: ss, hNames => by
    obtain ⟨hHead, hRest⟩ := Renaming.Covers.append.mp hNames
    rw [Stmt.renameAll, Stmt.resolveAll, Stmt.resolveAll]
    exact (Stmt.resolve_renamed s hHead).both Tracked.lasting (Stmt.resolveAll_renamed ss hRest)
      fun _ _ _ _ _ _ hFirst hTail => List.rel_append hFirst hTail

end

/-! ## Functions, structs and programs -/

/-- A renaming neither makes a name appear among known ones nor hides it. -/
theorem Renaming.contains_map {names : List String} {name : String}
    (hNames : ∀ n ∈ names, ρ.known kind n) (hName : ρ.known kind name) :
    (names.map (ρ.map kind)).contains (ρ.map kind name) = names.contains name := by
  rw [Bool.eq_iff_iff, List.contains_iff_mem, List.contains_iff_mem, List.mem_map]
  constructor
  · rintro ⟨other, hMem, hSame⟩
    rwa [← ρ.injective (hNames other hMem) hName hSame]
  · exact fun hMem => ⟨name, hMem, rfl⟩

/-- The variables of a function body and the renamed ones are declared in step. -/
theorem resolveLocals_renamed (seen : List String) {ds : List VarDecl}
    (hSeen : ∀ n ∈ seen, ρ.known .lexical n)
    (hNames : ρ.Covers (ds.flatMap (VarDecl.occurrences .lexical))) :
    InStep (Renamed ρ) w (resolveLocals seen ds)
      (resolveLocals (seen.map (ρ.map .lexical)) (ds.map (VarDecl.rename ρ.map .lexical)))
      (Tracked ρ (List.flatMap VarDecl.idents)) := by
  induction ds generalizing seen w with
  | nil => exact .pure fun _ _ => .nil
  | cons d ds ih =>
    obtain ⟨hHead, hRest⟩ := Renaming.Covers.append.mp hNames
    obtain ⟨hType, hId⟩ := Renaming.Covers.append.mp hHead
    obtain ⟨hFresh, hName⟩ := hId ⟨.lexical, d.id⟩ List.mem_cons_self
    intro w' hMore t u h
    rw [List.map_cons, resolveLocals, resolveLocals]
    refine .getTable ?_
    -- the variable repeats a name in both programs or in none
    have hRepeats : ((seen.map (ρ.map .lexical)).contains (ρ.map .lexical d.id.name) &&
          (u.lookupLocal (ρ.map .lexical d.id.name)).any Symbol.isFormal) =
        (seen.contains d.id.name && (t.lookupLocal d.id.name).any Symbol.isFormal) := by
      rw [ρ.contains_map hSeen hName,
        any_eq_of_rel (h.lookupLocal hName) fun _ _ hBoth => hBoth.isFormal_eq]
    have hTail := ih (w := w') (d.id.name :: seen) (List.forall_mem_cons.mpr ⟨hName, hSeen⟩) hRest
    simp only [VarDecl.rename, Ident.rename, hRepeats]
    split
    · have hUntouched : Tracked ρ VarDecl.idents w' d (d.rename ρ.map .lexical) :=
        List.rel_append (TypeRef.tracks hType) (.cons (hId.tracks List.mem_cons_self) .nil)
      refine .report _ (hTail.bind_pure (fun w'' hLater _ _ hTracked => ?_) w' le_rfl t u h)
      exact List.rel_append (Tracked.lasting hLater _ _ hUntouched) hTracked
    · exact (d.resolve_renamed hHead).cons hTail w' le_rfl t u h

/-- The body of a function and the renamed one are walked through in step. -/
theorem resolveBody_renamed {body : Block Stmt} (hNames : ρ.Covers body.occurrences) :
    InStep (Renamed ρ) w (resolveBody body) (resolveBody (body.rename ρ.map))
      (Tracked ρ Block.idents) := by
  obtain ⟨hDecls, hStmts⟩ := Renaming.Covers.append.mp hNames
  exact (resolveLocals_renamed [] nofun hDecls).both Tracked.lasting
    (Stmt.resolveAll_renamed body.stmts hStmts)
    fun _ _ _ _ _ _ hFirst hTracked => List.rel_append hFirst hTracked

/-- A function and the renamed one are walked through in step. -/
theorem FuncDecl.resolve_renamed {f : FuncDecl} (hNames : ρ.Covers f.occurrences) :
    InStep (Renamed ρ) w f.resolve (f.rename ρ.map).resolve (Tracked ρ FuncDecl.idents) := by
  -- the occurrences of a function come apart into its result, its name, its formals and its body
  obtain ⟨hSignature, hBody⟩ := Renaming.Covers.append.mp hNames
  obtain ⟨hHead, hFormals⟩ := Renaming.Covers.append.mp hSignature
  rw [lexicalOccurrences, List.map_append] at hHead
  obtain ⟨hResult, hId⟩ := Renaming.Covers.append.mp hHead
  obtain ⟨hFresh, hName⟩ := hId ⟨.lexical, f.id⟩ List.mem_cons_self
  refine (declareHere_renamed hName hFresh (.function _ _ _ _)).bind fun w₁ _ _ _ hTracks => ?_
  refine .inScope (Renamed.keepsScopes ρ) ?_
  refine (InStep.members hFormals fun f hf => f.resolve_renamed hf).both
    Tracked.lasting (resolveBody_renamed hBody) fun w₂ hLater _ _ _ _ hParams hInside => ?_
  refine List.rel_append (List.rel_append (List.rel_append ?_ ?_) hParams) hInside
  · exact TypeRef.tracks hResult
  · exact .cons (hTracks.mono hLater) .nil

/-- A struct and the renamed one are walked through in step. -/
theorem StructDecl.resolve_renamed {s : StructDecl} (hNames : ρ.Covers s.occurrences) :
    InStep (Renamed ρ) w s.resolve (s.rename ρ.map).resolve (Tracked ρ StructDecl.idents) := by
  obtain ⟨⟨hFresh, hName⟩, hFields⟩ := Renaming.Covers.cons.mp hNames
  refine (newScope_renamed .field).bind fun w₁ _ k _ hScope => ?_
  obtain ⟨rfl, hk⟩ := hScope
  refine (declareHere_renamed hName hFresh (.structDecl hk)).bind fun w₂ hMore _ _ hTracks => ?_
  refine (InStep.members hFields fun d hd =>
    d.resolveIn_renamed (hMore k .field hk) hd).bind_pure fun w₃ hLater _ _ hTracked => ?_
  exact .cons (hTracks.mono hLater) hTracked

/-- A declaration and the renamed one are walked through in step. -/
theorem Decl.resolve_renamed {d : Decl} (hNames : ρ.Covers d.occurrences) :
    InStep (Renamed ρ) w d.resolve (d.rename ρ.map).resolve (Tracked ρ Decl.idents) := by
  cases d with
  | var d => exact (d.resolve_renamed hNames).map fun _ _ _ _ hTracked => hTracked
  | func f => exact (f.resolve_renamed hNames).map fun _ _ _ _ hTracked => hTracked
  | struct s => exact (s.resolve_renamed hNames).map fun _ _ _ _ hTracked => hTracked

/-- New names for the names of a program. -/
def Program.renaming (p : Program) (σ : NameKind → String → String)
    (hInjective : ∀ kind, ∀ x ∈ p.names kind, ∀ y ∈ p.names kind, σ kind x = σ kind y → x = y) :
    Renaming where
  map := σ
  known kind name := name ∈ p.names kind
  injective hx hy hSame := hInjective _ _ hx _ hy hSame

/-- A program without symbols is covered by a renaming of its own names. -/
theorem Program.Fresh.covers {p : Program} (hFresh : p.Fresh) {σ : NameKind → String → String}
    (hInjective : ∀ kind, ∀ x ∈ p.names kind, ∀ y ∈ p.names kind, σ kind x = σ kind y → x = y) :
    (p.renaming σ hInjective).Covers p.occurrences := by
  intro o ho
  refine ⟨hFresh o.id ?_, ?_⟩
  · rw [← p.occurrences_id]
    exact List.mem_map_of_mem ho
  · exact List.mem_map.mpr ⟨o, List.mem_filter.mpr ⟨ho, decide_eq_true rfl⟩, rfl⟩

/-- Renaming puts no symbols on identifiers. -/
theorem Program.Fresh.rename {p : Program} (hFresh : p.Fresh) (σ : NameKind → String → String) :
    (p.rename σ).Fresh := by
  intro id hId
  rw [Program.idents_rename, List.mem_map] at hId
  obtain ⟨o, ho, rfl⟩ := hId
  refine hFresh o.id ?_
  rw [← p.occurrences_id]
  exact List.mem_map_of_mem ho

/-! ## The same connections -/

/-- The kind of the symbol that an identifier carries. -/
def Ident.category? (id : Ident) : Option Category :=
  id.symbol?.map Symbol.category

/-- The declaration whose symbol an identifier carries. -/
def Ident.origin? (id : Ident) : Option Origin :=
  id.symbol?.map Symbol.origin

/-- In both lists the same places carry no symbol, the undefined one, or one of another kind, and
two places carry the symbol of one declaration in both lists or in none. -/
structure SameBindings (ids ids' : List Ident) : Prop where
  categories : ids'.map Ident.category? = ids.map Ident.category?
  declarations : ∀ i j : Nat, (ids.map Ident.origin?)[i]? = (ids.map Ident.origin?)[j]? ↔
    (ids'.map Ident.origin?)[i]? = (ids'.map Ident.origin?)[j]?

/-- Names that track each other are of one category. -/
theorem Ident.Tracks.category?_eq {id id' : Ident} (h : id.Tracks ρ w id') :
    id'.category? = id.category? := by
  cases h with
  | unbound h h' => rw [Ident.category?, Ident.category?, h, h']
  | bound h h' hDenoted =>
    rw [Ident.category?, Ident.category?, h, h', Option.map_some, Option.map_some,
      hDenoted.category_eq]

/-- Two names share a declaration exactly if the names they track do. -/
theorem Ident.Tracks.origin?_eq_iff {id₁ id₁' id₂ id₂' : Ident} (h₁ : id₁.Tracks ρ w id₁')
    (h₂ : id₂.Tracks ρ w id₂') : id₁.origin? = id₂.origin? ↔ id₁'.origin? = id₂'.origin? := by
  simp only [Ident.origin?]
  cases h₁ with
  | unbound h₁ h₁' =>
    cases h₂ with
    | unbound h₂ h₂' => simp [h₁, h₁', h₂, h₂']
    | bound h₂ h₂' _ => simp [h₁, h₁', h₂, h₂']
  | bound h₁ h₁' hDenoted₁ =>
    cases h₂ with
    | unbound h₂ h₂' => simp [h₁, h₁', h₂, h₂']
    | bound h₂ h₂' hDenoted₂ => simp [h₁, h₁', h₂, h₂', hDenoted₁.origin_eq_iff hDenoted₂]

/-- Identifiers that track each other one by one are connected in the same way. -/
theorem sameBindings_of_tracks {ids ids' : List Ident}
    (h : List.Forall₂ (Ident.Tracks ρ w) ids ids') : SameBindings ids ids' where
  categories := by
    induction h with
    | nil => rfl
    | cons hHead _ ih => rw [List.map_cons, List.map_cons, hHead.category?_eq, ih]
  declarations i j := by
    -- entries at the same place track each other, as the lists do
    have hAt : ∀ i : Nat, Option.Rel (Ident.Tracks ρ w) ids[i]? ids'[i]? := fun i => by
      induction h generalizing i with
      | nil => exact .none
      | cons hHead _ ih =>
        cases i with
        | zero => exact .some hHead
        | succ i => exact ih i
    simp only [List.getElem?_map]
    have hFirst := hAt i
    have hSecond := hAt j
    generalize ids[i]? = a, ids'[i]? = a', ids[j]? = b, ids'[j]? = b' at hFirst hSecond
    -- two entries denote one declaration before the renaming exactly if their counterparts do after
    -- it
    cases hFirst with
    | none => cases hSecond <;> simp
    | some h₁ =>
      cases hSecond with
      | none => simp
      | some h₂ => simpa using h₁.origin?_eq_iff h₂

/-- **No name is special.** Take a program without symbols, and give it new names: the lexical ones
are replaced by one map, and the names of fields by another, so that different names of one
namespace stay different. The analyses of both programs do not fail and report the same errors in
the same order. In the answers the same identifiers are left without a symbol, the same ones are
undefined, and two of them stand for one declaration if they do so in the other program. -/
theorem renaming_keeps_bindings (a : Analyzer) {p : Program} (hFresh : p.Fresh)
    {σ : NameKind → String → String}
    (hInjective : ∀ kind, ∀ x ∈ p.names kind, ∀ y ∈ p.names kind, σ kind x = σ kind y → x = y) :
    ∃ q b q' b', a.analyze p = .ok (q, b) ∧ a.analyze (p.rename σ) = .ok (q', b') ∧
      q.bare = p.bare ∧ q'.bare = (p.rename σ).bare ∧ b'.errors = b.errors ∧
      SameBindings q.idents q'.idents := by
  have hDecls := InStep.members (hFresh.covers hInjective) fun d hd =>
    d.resolve_renamed (w := .make (fun _ => none) a.table.store.length .lexical) hd
  obtain ⟨w, ds, t, ds', t', errors, -, hYields, hYields', -, -, hTracked⟩ :=
    hDecls _ le_rfl _ _ (.restart _ a.table)
  obtain ⟨b, hAnalyze, -, hErrors⟩ := analyze_of_yields hYields
  obtain ⟨b', hAnalyze', -, hErrors'⟩ := analyze_of_yields hYields'
  -- both answers are their programs with symbols
  obtain ⟨_, _, hAnswer, hBare, -⟩ := analyze_settles a hFresh
  obtain ⟨_, _, hAnswer', hBare', -⟩ := analyze_settles a (hFresh.rename σ)
  obtain ⟨rfl, rfl⟩ := Prod.mk.inj (Except.ok.inj (hAnswer.symm.trans hAnalyze))
  obtain ⟨rfl, rfl⟩ := Prod.mk.inj (Except.ok.inj (hAnswer'.symm.trans hAnalyze'))
  exact ⟨_, _, _, _, hAnalyze, hAnalyze', hBare, hBare', hErrors'.trans hErrors.symm,
    sameBindings_of_tracks hTracked⟩

/-- `struct P [integer x.] struct P x. void f[] [ x:x = x:y + y. ]`, where `x` is a field and a
variable, and nothing declares `y` in either namespace. -/
def sharedNames : Program :=
  ⟨[.struct ⟨⟨⟨1, 8⟩, "P", none⟩, [⟨.integer, ⟨⟨1, 19⟩, "x", none⟩, true⟩]⟩,
    .var ⟨.struct ⟨⟨2, 8⟩, "P", none⟩, ⟨⟨2, 10⟩, "x", none⟩, false⟩,
    .func
      { result := .void
        id := ⟨⟨3, 6⟩, "f", none⟩
        body := ⟨[],
          [.assign (.field (.var ⟨⟨4, 1⟩, "x", none⟩) ⟨⟨4, 3⟩, "x", none⟩)
            (.binary "+" (.loc (.field (.var ⟨⟨4, 7⟩, "x", none⟩) ⟨⟨4, 9⟩, "y", none⟩))
              (.loc (.var ⟨⟨4, 13⟩, "y", none⟩)))]⟩ }]⟩

/-- Exchanges the names `P` and `x` of variables, functions and structs, and `x` and `y` of
fields. -/
def exchangeNames : NameKind → String → String
  | .lexical, name => if name = "P" then "x" else if name = "x" then "P" else name
  | .field, name => if name = "x" then "y" else if name = "y" then "x" else name

/-- The hypotheses can be met, and there are errors to keep. -/
theorem sharedNames_renaming :
    (sharedNames.Fresh ∧ ∀ kind, ∀ x ∈ sharedNames.names kind, ∀ y ∈ sharedNames.names kind,
      exchangeNames kind x = exchangeNames kind y → x = y) ∧
    ((Analyzer.new.analyze sharedNames).toOption.map fun answer => answer.2.errors) =
      some [.located .invalidField ⟨4, 9⟩, .located .undeclared ⟨4, 13⟩] ∧
    ∃ q b q' b', Analyzer.new.analyze sharedNames = .ok (q, b) ∧
      Analyzer.new.analyze (sharedNames.rename exchangeNames) = .ok (q', b') ∧
      q.bare = sharedNames.bare ∧ q'.bare = (sharedNames.rename exchangeNames).bare ∧
      b'.errors = b.errors ∧ SameBindings q.idents q'.idents := by
  have hFresh : sharedNames.Fresh := by
    unfold Program.Fresh
    decide
  -- both renamings exchange names, so they are injective on each kind
  have hInjective : ∀ kind, ∀ x ∈ sharedNames.names kind, ∀ y ∈ sharedNames.names kind,
      exchangeNames kind x = exchangeNames kind y → x = y := by
    intro kind
    cases kind <;> decide
  exact ⟨⟨hFresh, hInjective⟩, by decide +kernel,
    renaming_keeps_bindings Analyzer.new hFresh hInjective⟩

end NameResolution
