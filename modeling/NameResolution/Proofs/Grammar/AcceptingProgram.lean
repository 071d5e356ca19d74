import NameResolution.Proofs.Grammar.AcceptingStatement

/-!
# Accepting programs — declarations, and the end of the text

Structs, functions and variables can start with the same tokens. A struct shows by the name and the
bracket behind its keyword, a function by the bracket behind its name.

* `DerivesDecl.accepted` — declarations.
* `parse_found`, `parse_accepts` — every program is accepted.
-/

namespace NameResolution.Grammar

open NameResolution.Grammar.Parser

variable {ctx : Context} {cs mid rest : List Char} {ts us : List Token}

/-! ## Parts of declarations -/

/-- A formal is read as itself, up to positions. -/
theorem DerivesFormal.accepted {f : Formal} (h : DerivesFormal ts f) (hCut : FoundCut ts cs rest)
    (ctx : Context) :
    ∃ f', formal ctx cs = .matched f' rest ∧ f'.unplaced = f.unplaced := by
  cases h with
  | intro hType hId =>
    obtain ⟨cs₁, hTypeCut, hIdCut⟩ := hCut.split
    obtain ⟨type', hRead, hTypeShape⟩ := hType.accepted hTypeCut ctx
    obtain ⟨id', hIdent, hIdShape⟩ := hId.accepted hIdCut ctx
    refine ⟨⟨type', id'⟩, ?_, ?_⟩
    · rw [formal, bind_of_matched hRead, bind_of_matched hIdent]
      rfl
    · rw [Formal.unplaced_mk, hTypeShape, hIdShape, Formal.unplaced_mk]

/-- The formals of a function are read up to the bracket that closes them. -/
theorem formals_accepted {d : Dialect} {formals : List (List Token × Formal)}
    (hFormals : ∀ f ∈ formals, DerivesFormal f.1 f.2) (hList : d.Listed (formals.map (·.1)) ts)
    (hCut : FoundCut ts cs rest) (hEnd : ahead rest = some ']')
    (ctx : Context) :
    ∃ formals', sepBy formal (symbol [',']) ctx cs = .matched formals' rest ∧
      formals'.map Formal.unplaced = formals.map fun f => f.2.unplaced :=
  sepBy_accepted formal Formal.unplaced (fun _ => True) ctx
    (fun f hf _ _ hCut _ => (hFormals f hf).accepted hCut ctx)
    (fun _ hComma => ⟨trivial, bind_of_rejected (typeRef_rejects (all_ahead hComma (by decide)))⟩)
    hList hCut trivial (bind_of_rejected (typeRef_rejects (all_ahead hEnd (by decide))))
    (by rw [hEnd]; decide)

/-- The fields of a struct, of which there is at least one. -/
theorem fields_accepted {fields : List VarDecl} (hFields : Rows DerivesVarDecl ts fields)
    (hSome : fields ≠ []) (hCut : FoundCut ts cs rest) (hEnd : ahead rest = some ']')
    (ctx : Context) :
    ∃ fields', many1 varDecl ctx cs = .matched fields' rest ∧
      fields'.map VarDecl.unplaced = fields.map VarDecl.unplaced := by
  obtain ⟨fields', hRuns, hShapes⟩ := varDecls_accepted hFields hCut ctx
  have hStop : varDecl ctx rest = .rejected :=
    bind_of_rejected (typeRef_rejects (all_ahead hEnd (by decide)))
  -- a struct has at least one field
  cases hRuns with
  | nil => exact absurd (List.map_eq_nil_iff.mp hShapes.symm) hSome
  | cons hFirst hShorter hOthers =>
    refine ⟨_, ?_, hShapes⟩
    rw [many1, bind_of_matched hFirst, bind_of_matched (many_of_runs hOthers hStop)]
    rfl

/-- Marking fields as such does not depend on positions. -/
theorem VarDecl.unplaced_asField (fields fields' : List VarDecl)
    (h : fields'.map VarDecl.unplaced = fields.map VarDecl.unplaced) :
    (fields'.map fun field => { field with isField := true }).map VarDecl.unplaced =
      (fields.map fun field => { field with isField := true }).map VarDecl.unplaced := by
  have hField : ∀ fields : List VarDecl,
      (fields.map fun field => { field with isField := true }).map VarDecl.unplaced =
        (fields.map VarDecl.unplaced).map fun field => { field with isField := true } := by
    intro fields
    rw [List.map_map, List.map_map]
    rfl
  rw [hField, hField, h]

/-! ## Declarations -/

/-- Where a struct type and a name stand, there is no struct. -/
theorem structDecl_rejects {type : TypeRef} {id : Ident} (hType : DerivesType ts type)
    (hId : DerivesIdent us id) (hCut : FoundCut (ts ++ us) cs rest) :
    structDecl ctx cs = .rejected := by
  obtain ⟨cs₁, hTypeCut, hIdCut⟩ := hCut.split
  have hOther : ∀ {k : Keyword}, .struct ≠ k → FoundCut [.keyword k] cs cs₁ →
      structDecl ctx cs = .rejected := by
    intro k hNe hKeyword
    exact bind_of_rejected (keyword_rejects_keyword hKeyword.single_inv.1 hNe)
  cases hType with
  | boolean => exact hOther (by decide) hTypeCut
  | integer => exact hOther (by decide) hTypeCut
  | void => exact hOther (by decide) hTypeCut
  | struct hName =>
    obtain ⟨cs₂, hKeyword, hNameCut⟩ := hTypeCut.uncons
    obtain ⟨name', hIdent, -⟩ := hName.accepted hNameCut ctx
    -- a name follows the struct type, where a struct would have its bracket
    have hNoBracket : ahead cs₁ ≠ some '[' := hId.starts.ahead_ne hIdCut.cut (by decide)
    rw [structDecl, bind_of_matched (keyword_accepted hKeyword), bind_of_matched hIdent]
    exact bind_of_rejected (symbol_rejects hNoBracket)

/-- A struct is read as itself, up to positions. -/
theorem structDecl_accepted {id : Ident} {fields : List VarDecl} (hId : DerivesIdent ts id)
    (hFields : Rows DerivesVarDecl us fields) (hSome : fields ≠ [])
    (hCut : FoundCut (.keyword .struct :: (ts ++ enclosed '[' ']' us)) cs rest)
    (ctx : Context) :
    ∃ s', structDecl ctx cs = .matched s' rest ∧ (Decl.struct s').unplaced =
      (Decl.struct ⟨id, fields.map fun field => { field with isField := true }⟩).unplaced := by
  -- the cut is taken apart token by token, and each part is read where it was found
  obtain ⟨cs₁, hKeyword, hCut⟩ := hCut.uncons
  obtain ⟨cs₂, hIdCut, hCut⟩ := hCut.split
  obtain ⟨cs₃, hOpen, hCut⟩ := hCut.uncons
  obtain ⟨cs₄, hFieldsCut, hClose⟩ := hCut.split
  obtain ⟨id', hIdent, hIdShape⟩ := hId.accepted hIdCut ctx
  obtain ⟨fields', hRead, hShapes⟩ :=
    fields_accepted hFields hSome hFieldsCut (hClose.ahead) ctx
  refine ⟨⟨id', fields'.map fun field => { field with isField := true }⟩, ?_, ?_⟩
  · rw [structDecl, bind_of_matched (keyword_accepted hKeyword), bind_of_matched hIdent,
      bind_of_matched (symbol_accepted hOpen), bind_of_matched hRead,
      bind_of_matched (symbol_accepted hClose)]
    rfl
  · rw [Decl.unplaced_struct, hIdShape, VarDecl.unplaced_asField _ _ hShapes,
      Decl.unplaced_struct]

/-- A function is read as itself, up to positions. -/
theorem funcDecl_accepted {vs ds ss : List Token} {result : TypeRef} {id : Ident}
    {formals : List (List Token × Formal)} {decls : List VarDecl} {stmts : List Stmt}
    (hResult : DerivesType ts result) (hId : DerivesIdent us id)
    (hFormals : ∀ f ∈ formals, DerivesFormal f.1 f.2)
    (hList : ctx.dialect.Listed (formals.map (·.1)) vs) (hDecls : Rows DerivesVarDecl ds decls)
    (hStmts : Rows (DerivesStmt ctx.dialect) ss stmts)
    (hCut : FoundCut (ts ++ us ++ enclosed '[' ']' vs ++ enclosed '[' ']' (ds ++ ss)) cs rest) :
    ∃ f', funcDecl ctx cs = .matched f' rest ∧ (Decl.func f').unplaced =
      (Decl.func ⟨result, id, formals.map (·.2), ⟨decls, stmts⟩⟩).unplaced := by
  -- cut at the type, the name, the formals and the body
  obtain ⟨cs₃, hHeadCut, hBodyCut⟩ := hCut.split
  obtain ⟨cs₂, hNamedCut, hFormalsCut⟩ := hHeadCut.split
  obtain ⟨cs₁, hResultCut, hIdCut⟩ := hNamedCut.split
  obtain ⟨fs₁, hOpen, hFormalsCut⟩ := hFormalsCut.uncons
  obtain ⟨fs₂, hListCut, hClose⟩ := hFormalsCut.split
  obtain ⟨bs₁, hOpen', hBodyCut⟩ := hBodyCut.uncons
  obtain ⟨bs₂, hBlockCut, hClose'⟩ := hBodyCut.split
  obtain ⟨rows, hRows, rfl, rfl⟩ := hStmts
  -- each part is read in front of the next one
  obtain ⟨result', hRead, hResultShape⟩ := hResult.accepted hResultCut ctx
  obtain ⟨id', hIdent, hIdShape⟩ := hId.accepted hIdCut ctx
  obtain ⟨formals', hReadFormals, hFormalShapes⟩ :=
    formals_accepted hFormals hList hListCut (hClose.ahead) ctx
  obtain ⟨body', hReadBody, hBodyShape⟩ := block_accepted hDecls
    (fun s hs => ⟨(hRows s hs).starts, (hRows s hs).accepted⟩) hBlockCut (hClose'.ahead)
    (by decide)
  refine ⟨⟨result', id', formals', body'⟩, ?_, ?_⟩
  · rw [funcDecl, bind_of_matched hRead, bind_of_matched hIdent,
      bind_of_matched (symbol_accepted hOpen), bind_of_matched hReadFormals,
      bind_of_matched (symbol_accepted hClose), bind_of_matched (symbol_accepted hOpen'),
      bind_of_matched hReadBody, bind_of_matched (symbol_accepted hClose')]
    rfl
  · rw [Decl.unplaced_func, hResultShape, hIdShape, hFormalShapes, hBodyShape,
      Decl.unplaced_func, List.map_map]
    rfl

/-- Every declaration of the grammar is accepted. -/
theorem DerivesDecl.accepted {d : Decl} (h : DerivesDecl ctx.dialect ts d)
    (hCut : FoundCut ts cs rest) :
    ∃ d', decl ctx cs = .matched d' rest ∧ d'.unplaced = d.unplaced := by
  cases h with
  | struct hId hFields hSome =>
    obtain ⟨s', hRead, hShape⟩ := structDecl_accepted hId hFields hSome hCut ctx
    exact ⟨.struct s', orElse_of_matched (map_of_matched hRead), hShape⟩
  | func hResult hId formals hFormals hList hDecls hStmts =>
    obtain ⟨f', hRead, hShape⟩ :=
      funcDecl_accepted hResult hId hFormals hList hDecls hStmts hCut
    obtain ⟨cs₃, hHeadCut, -⟩ := hCut.split
    obtain ⟨cs₂, hNamedCut, -⟩ := hHeadCut.split
    have hNoStruct : structDecl ctx cs = .rejected := structDecl_rejects hResult hId hNamedCut
    refine ⟨.func f', ?_, hShape⟩
    rw [decl, orElse_of_rejected (map_of_rejected hNoStruct)]
    exact orElse_of_matched (map_of_matched hRead)
  | var hDecl =>
    obtain ⟨v', hRead, hShape⟩ := hDecl.accepted hCut ctx
    cases hDecl with
    | intro hType hId =>
      obtain ⟨cs₂, hNamedCut, hPoint⟩ := hCut.split
      obtain ⟨cs₁, hTypeCut, hIdCut⟩ := hNamedCut.split
      have hNoStruct : structDecl ctx cs = .rejected := structDecl_rejects hType hId hNamedCut
      -- a point stands where the formals of a function would begin
      have hNoFunc : funcDecl ctx cs = .rejected := by
        obtain ⟨type', hReadType, -⟩ := hType.accepted hTypeCut ctx
        obtain ⟨id', hIdent, -⟩ := hId.accepted hIdCut ctx
        rw [funcDecl, bind_of_matched hReadType, bind_of_matched hIdent]
        exact bind_of_rejected (symbol_rejects (by rw [hPoint.ahead]; decide))
      refine ⟨.var v', ?_, by rw [Decl.unplaced_var, hShape, Decl.unplaced_var]⟩
      rw [decl, orElse_of_rejected (map_of_rejected hNoStruct),
        orElse_of_rejected (map_of_rejected hNoFunc), map_of_matched hRead]

theorem DerivesDecl.ne_nil {dialect : Dialect} {d : Decl} (h : DerivesDecl dialect ts d) :
    ts ≠ [] := by
  cases h with
  | struct => exact List.cons_ne_nil _ _
  | func => simp [enclosed]
  | var hDecl => exact hDecl.ne_nil

/-! ## Programs -/

/-- At the end of the text there is no declaration. -/
theorem decl_rejects_end (hEnd : skipTrivia cs = []) : decl ctx cs = .rejected := by
  -- nothing is ahead, so no type and no keyword is
  have hNoLetter : ∀ c ∈ ahead cs, c.isAlpha = false := by
    rw [ahead, hEnd]
    intro c hc
    cases hc
  have hNoType : typeRef ctx cs = .rejected := typeRef_rejects hNoLetter
  have hNoKeyword : keyword .struct ctx cs = .rejected := keyword_rejects hNoLetter
  have hNoStruct : structDecl ctx cs = .rejected := bind_of_rejected hNoKeyword
  have hNoFunc : funcDecl ctx cs = .rejected := bind_of_rejected hNoType
  have hNoVar : varDecl ctx cs = .rejected := bind_of_rejected hNoType
  rw [decl, orElse_of_rejected (map_of_rejected hNoStruct),
    orElse_of_rejected (map_of_rejected hNoFunc), map_of_rejected hNoVar]

/-- **Every program is accepted.** A text that is cut into the tokens of a program as the parser
cuts it is read as that program. -/
theorem parseUpTo_found {limit : Nat} {source : String} {p : Program}
    (h : DerivesProgram (.orderedUpTo limit) ts p) (hCut : FoundCut ts source.toList rest)
    (hEnd : skipTrivia rest = []) :
    ∃ q, parseUpTo limit source = .ok q ∧ q.unplaced = p.unplaced := by
  obtain ⟨rows, hRows, rfl, hDecls⟩ := h
  let ctx := contextOf limit source.toList
  -- anything may follow a declaration
  obtain ⟨decls', hRuns, hShapes⟩ := runs_accepted decl Decl.unplaced (fun _ => True) ctx
    (fun row hRow _ _ hCut _ => (hRows row hRow).accepted hCut)
    (fun row hRow => (hRows row hRow).ne_nil) (fun _ _ _ _ _ => trivial) hCut trivial
  have hStop : endOfText ctx rest = .matched () [] := endOfText_eq_matched.mpr ⟨hEnd, rfl⟩
  have hRead : program ctx source.toList = .matched ⟨decls'⟩ [] := by
    rw [program, bind_of_matched (many_of_runs hRuns (decl_rejects_end hEnd)),
      bind_of_matched hStop]
    rfl
  refine ⟨⟨decls'⟩, ?_, ?_⟩
  · rw [parseUpTo]
    simp only [ctx] at hRead
    simp only [hRead]
  · obtain ⟨decls⟩ := p
    change decls = _ at hDecls
    rw [Program.unplaced_mk, hShapes, hDecls, Program.unplaced_mk, List.map_map]
    rfl

theorem parse_found {source : String} {p : Program} (h : DerivesProgram .ordered ts p)
    (hCut : FoundCut ts source.toList rest) (hEnd : skipTrivia rest = []) :
    ∃ q, parse source = .ok q ∧ q.unplaced = p.unplaced :=
  parseUpTo_found h hCut hEnd

/-- So is a text where no token can be mistaken for another. -/
theorem parse_accepts {source : String} {p : Program} (h : DerivesProgram .ordered ts p)
    (hCut : ClosedCut ts source.toList rest) (hEnd : skipTrivia rest = []) :
    ∃ q, parse source = .ok q ∧ q.unplaced = p.unplaced :=
  parse_found h hCut.found hEnd

end NameResolution.Grammar
