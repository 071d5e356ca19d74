import NameResolution.Proofs.Grammar.AcceptingExpression

/-!
# Accepting blocks — where the declarations and the statements of a block end

A name at the start of a statement can be taken for the type of a declaration and the name behind
it, as in `integer_x`. What follows the name shows that it is none: a declaration has a point there.

* `DerivesVarDecl.accepted` — declarations of variables.
* `StartsStmt`, `varDecl_rejects_statement` — the declarations end where the statements begin.
* `block_accepted` — a block of accepted statements is read.
-/

namespace NameResolution.Grammar

open NameResolution.Grammar.Parser

variable {α : Type} {ctx : Context} {cs mid rest : List Char} {ts us : List Token}

/-! ## Types and variables -/

/-- A type is read as itself, up to positions. -/
theorem DerivesType.accepted {type : TypeRef} (h : DerivesType ts type)
    (hCut : FoundCut ts cs rest) (ctx : Context) :
    ∃ type', typeRef ctx cs = .matched type' rest ∧ type'.unplaced = type.unplaced := by
  obtain ⟨k, hFirst⟩ : ∃ k, ∃ us, ts = .keyword k :: us := by
    cases h with
    | boolean | integer | void | struct => exact ⟨_, _, rfl⟩
  -- the alternatives of the other keywords reject the type
  have hOther : ∀ {k' : Keyword} {type : TypeRef}, k' ≠ k →
      (keyword k' >>= fun _ => pure type) ctx cs = .rejected := by
    intro k' type hNe
    obtain ⟨us, rfl⟩ := hFirst
    obtain ⟨mid, hKeyword, -⟩ := hCut.uncons
    exact bind_of_rejected (keyword_rejects_keyword hKeyword.single_inv.1 hNe)
  obtain ⟨us, hTokens⟩ := hFirst
  cases h with
  | boolean =>
    refine ⟨.boolean, orElse_of_matched ?_, rfl⟩
    rw [bind_of_matched (keyword_accepted hCut)]
    rfl
  | integer =>
    cases hTokens
    refine ⟨.integer, ?_, rfl⟩
    rw [typeRef, orElse_of_rejected (hOther (by decide))]
    refine orElse_of_matched ?_
    rw [bind_of_matched (keyword_accepted hCut)]
    rfl
  | void =>
    cases hTokens
    refine ⟨.void, ?_, rfl⟩
    rw [typeRef, orElse_of_rejected (hOther (by decide)), orElse_of_rejected (hOther (by decide))]
    refine orElse_of_matched ?_
    rw [bind_of_matched (keyword_accepted hCut)]
    rfl
  | struct hId =>
    cases hTokens
    obtain ⟨mid, hKeyword, hIdCut⟩ := hCut.uncons
    obtain ⟨id', hIdent, hShape⟩ := hId.accepted hIdCut ctx
    refine ⟨.struct id', ?_, ?_⟩
    · rw [typeRef, orElse_of_rejected (hOther (by decide)),
        orElse_of_rejected (hOther (by decide)), orElse_of_rejected (hOther (by decide)),
        bind_of_matched (keyword_accepted hKeyword), bind_of_matched hIdent]
      rfl
    · rw [TypeRef.unplaced_struct, hShape, TypeRef.unplaced_struct]

/-- A variable is read as itself, up to positions. -/
theorem DerivesVarDecl.accepted {d : VarDecl} (h : DerivesVarDecl ts d)
    (hCut : FoundCut ts cs rest) (ctx : Context) :
    ∃ d', varDecl ctx cs = .matched d' rest ∧ d'.unplaced = d.unplaced := by
  cases h with
  | intro hType hId =>
    -- the cut is taken apart from behind, as the tokens are grouped to the left
    obtain ⟨cs₂, hCut, hPoint⟩ := hCut.split
    obtain ⟨cs₁, hTypeCut, hIdCut⟩ := hCut.split
    obtain ⟨type', hRead, hTypeShape⟩ := hType.accepted hTypeCut ctx
    obtain ⟨id', hIdent, hIdShape⟩ := hId.accepted hIdCut ctx
    refine ⟨⟨type', id', false⟩, ?_, ?_⟩
    · rw [varDecl, bind_of_matched hRead, bind_of_matched hIdent,
        bind_of_matched (symbol_accepted hPoint)]
      rfl
    · rw [VarDecl.unplaced_mk, hTypeShape, hIdShape, VarDecl.unplaced_mk]

theorem DerivesVarDecl.ne_nil {d : VarDecl} (h : DerivesVarDecl ts d) : ts ≠ [] := by
  cases h
  simp

/-- Declarations of variables are read as a run. -/
theorem varDecls_accepted {decls : List VarDecl} (h : Rows DerivesVarDecl ts decls)
    (hCut : FoundCut ts cs rest) (ctx : Context) :
    ∃ decls', Runs varDecl ctx cs decls' rest ∧
      decls'.map VarDecl.unplaced = decls.map VarDecl.unplaced := by
  obtain ⟨rows, hRows, rfl, rfl⟩ := h
  obtain ⟨decls', hRuns, hShapes⟩ := runs_accepted varDecl VarDecl.unplaced (fun _ => True)
    ctx (fun row hRow cs rest hCut _ => (hRows row hRow).accepted hCut ctx)
    (fun row hRow => (hRows row hRow).ne_nil)
    (fun _ _ _ _ _ => trivial) hCut trivial
  refine ⟨decls', hRuns, ?_⟩
  rw [hShapes, List.map_map]
  rfl

/-! ## Names that start with a keyword -/

/-- A name is taken for a keyword only up to an underscore. -/
theorem DerivesIdent.keyword_cases {id : Ident} (h : DerivesIdent ts id)
    (hCut : FoundCut ts cs mid) (k : Keyword) (ctx : Context) :
    keyword k ctx cs = .rejected ∨
      ∃ us id' cs', keyword k ctx cs = .matched () cs' ∧ ahead cs' = some '_' ∧
        DerivesIdent us id' ∧ FoundCut us cs' mid ∧
        id'.name.toList.head? = some '_' ∧ k.Opens id.name := by
  cases h with
  | @name pos word hName =>
    obtain ⟨hText, hEnd⟩ := hCut.single_inv
    rcases keyword_name_cases k ctx hName hText hEnd with hReject | ⟨tail, hWord, hMatch⟩
    · exact .inl hReject
    · have hStart : skipTrivia ('_' :: tail ++ mid) = '_' :: tail ++ mid :=
        skipTrivia_of_starts (by decide)
      -- the name is cut behind the keyword, and the rest of it is a name as well
      refine .inr ⟨[.name pos (String.ofList ('_' :: tail))], _, '_' :: tail ++ mid, hMatch, ?_,
        .name pos (isName_tail hName hWord), .single ?_ ?_ hEnd nofun, ?_, ?_⟩
      · rw [ahead, hStart]
        rfl
      · rw [hStart, Token.chars, String.toList_ofList]
      · rw [Token.chars, String.toList_ofList]
        exact List.cons_ne_nil _ _
      · rw [String.toList_ofList]
        rfl
      · exact ⟨tail, by rw [hWord, List.append_assoc]; rfl⟩

/-- An alternative that starts with a keyword rejects a name if it cannot go on with an
underscore. -/
theorem DerivesIdent.rejected_behind {id : Ident} {k : Keyword} {next : Unit → Parser α}
    (h : DerivesIdent ts id) (hCut : FoundCut ts cs mid)
    (hNext : ∀ cs', ahead cs' = some '_' → next () ctx cs' = .rejected) :
    (keyword k >>= next) ctx cs = .rejected := by
  rcases h.keyword_cases hCut k ctx with hReject | ⟨-, -, cs', hMatch, hAhead, -⟩
  · exact bind_of_rejected hReject
  · rw [bind_of_matched hMatch, hNext cs' hAhead]

/-! ## Where statements begin -/

/-- The keywords that a statement starts with. -/
def statementWords : List Keyword := [.ifWord, .whileWord, .input, .disp, .returnWord]

/-- The characters that follow the first name of a statement. -/
def statementMarks : List Char := [':', '(', '=', '+', '-']

/-- A statement starts with one of its keywords, or with a name that one of the marks follows. -/
def StartsStmt (ts : List Token) : Prop :=
  (∃ k us, k ∈ statementWords ∧ ts = .keyword k :: us) ∨
    ∃ us id vs c s ws, DerivesIdent us id ∧ c ∈ statementMarks ∧
      ts = us ++ vs ∧ vs = .symbol (c :: s) :: ws

/-- A location with such a mark behind it starts a statement. -/
theorem DerivesLoc.startsStmt {loc : Loc} {c : Char} {s : List Char} (h : DerivesLoc ts loc)
    (hMark : c ∈ statementMarks) : StartsStmt (ts ++ .symbol (c :: s) :: us) := by
  obtain ⟨ns, vs, rfl, hRoot, hFields, -⟩ := h.root
  rcases hFields with rfl | ⟨ws, rfl⟩
  · exact .inr ⟨ns, _, .symbol (c :: s) :: us, c, s, us, hRoot, hMark, by simp, rfl⟩
  · exact .inr ⟨ns, _, .symbol [':'] :: (ws ++ .symbol (c :: s) :: us), ':', [], _, hRoot,
      by decide, by simp, rfl⟩

/-- Every statement starts in one of the ways. -/
theorem DerivesStmt.starts {d : Dialect} {s : Stmt} (h : DerivesStmt d ts s) : StartsStmt ts := by
  cases h with
  | ifThen | ifElse | loop | read | write | retNone | retSome =>
    exact .inl ⟨_, _, by decide, rfl⟩
  | @call _ us _ hCallee _ _ _ _ =>
    exact .inr ⟨_, _, _, '(', [], _, hCallee, by decide, List.append_assoc _ _ _, rfl⟩
  | increment hTarget => exact hTarget.startsStmt (by decide)
  | decrement hTarget => exact hTarget.startsStmt (by decide)
  | assign hTarget _ _ => exact hTarget.startsStmt (by decide)

theorem StartsStmt.ne_nil (h : StartsStmt ts) : ts ≠ [] := by
  rcases h with ⟨k, us, -, rfl⟩ | ⟨us, id, vs, c, s, ws, -, -, rfl, rfl⟩
  · exact List.cons_ne_nil _ _
  · simp

/-- Declarations end at closing brackets. -/
theorem typeRef_rejects (h : ∀ c ∈ ahead cs, c.isAlpha = false) :
    typeRef ctx cs = .rejected := by
  have hKeyword : ∀ {β : Type} {k : Keyword} {next : Unit → Parser β},
      (keyword k >>= next) ctx cs = .rejected := fun {_ _ _} =>
    bind_of_rejected (keyword_rejects h)
  rw [typeRef, orElse_of_rejected hKeyword, orElse_of_rejected hKeyword,
    orElse_of_rejected hKeyword, hKeyword]

theorem varDecl_rejects_keyword {k : Keyword} (hWord : k ∈ statementWords)
    (hText : skipTrivia cs = k.chars ++ rest) : varDecl ctx cs = .rejected := by
  -- the keyword is none of those that start a type
  have hOther : ∀ {β : Type} {k' : Keyword} {next : Unit → Parser β}, k' ∉ statementWords →
      (keyword k' >>= next) ctx cs = .rejected := by
    intro β k' next hNot
    refine bind_of_rejected (keyword_rejects_keyword hText ?_)
    rintro rfl
    exact hNot hWord
  have hType : typeRef ctx cs = .rejected := by
    rw [typeRef, orElse_of_rejected (hOther (by decide)), orElse_of_rejected (hOther (by decide)),
      orElse_of_rejected (hOther (by decide)), hOther (by decide)]
  exact bind_of_rejected hType

/-- What a name can be taken for where a type is expected: a basic type, or `struct` with the name
of one. Each leaves the rest of the name behind, which starts with an underscore. -/
theorem DerivesIdent.typeRef_cases {id : Ident} (h : DerivesIdent ts id)
    (hCut : FoundCut ts cs mid) (ctx : Context) :
    typeRef ctx cs = .rejected ∨
      (∃ type us id' cs', typeRef ctx cs = .matched type cs' ∧ DerivesIdent us id' ∧
        FoundCut us cs' mid) ∨
      ∃ id', typeRef ctx cs = .matched (.struct id') mid := by
  have hNone : ∀ {k : Keyword} {type : TypeRef}, keyword k ctx cs = .rejected →
      (keyword k >>= fun _ => pure type) ctx cs = .rejected := bind_of_rejected
  have hPure : ∀ {k : Keyword} {cs' : List Char} (type : TypeRef),
      keyword k ctx cs = .matched () cs' →
      (keyword k >>= fun _ => pure type) ctx cs = .matched type cs' := by
    intro k cs' type hMatch
    rw [bind_of_matched hMatch]
    rfl
  -- the alternatives of a type in their order, each one tried where those before it reject
  rcases h.keyword_cases hCut .boolean ctx with
    hBoolean | ⟨_, _, _, hMatch, -, hTail, hTailCut, -⟩
  swap
  · exact .inr (.inl ⟨.boolean, _, _, _, orElse_of_matched (hPure _ hMatch), hTail, hTailCut⟩)
  rcases h.keyword_cases hCut .integer ctx with
    hInteger | ⟨_, _, _, hMatch, -, hTail, hTailCut, -⟩
  swap
  · refine .inr (.inl ⟨.integer, _, _, _, ?_, hTail, hTailCut⟩)
    rw [typeRef, orElse_of_rejected (hNone hBoolean)]
    exact orElse_of_matched (hPure _ hMatch)
  rcases h.keyword_cases hCut .void ctx with
    hVoid | ⟨_, _, _, hMatch, -, hTail, hTailCut, -⟩
  swap
  · refine .inr (.inl ⟨.void, _, _, _, ?_, hTail, hTailCut⟩)
    rw [typeRef, orElse_of_rejected (hNone hBoolean), orElse_of_rejected (hNone hInteger)]
    exact orElse_of_matched (hPure _ hMatch)
  have hStruct : typeRef ctx cs =
      (keyword .struct >>= fun _ => ident >>= fun id => pure (.struct id)) ctx cs := by
    rw [typeRef, orElse_of_rejected (hNone hBoolean), orElse_of_rejected (hNone hInteger),
      orElse_of_rejected (hNone hVoid)]
  rcases h.keyword_cases hCut .struct ctx with
    hNo | ⟨_, _, _, hMatch, -, hTail, hTailCut, -⟩
  · exact .inl (hStruct.trans (bind_of_rejected hNo))
  · -- the rest of the name is the name of the struct
    obtain ⟨id', hIdent, -⟩ := hTail.accepted hTailCut ctx
    rw [bind_of_matched hMatch, bind_of_matched hIdent] at hStruct
    exact .inr (.inr ⟨id', hStruct⟩)

/-- A statement that starts with a name is no variable, not even if the name starts with a type
word. -/
theorem varDecl_rejects_name {id : Ident} {c : Char} (h : DerivesIdent ts id)
    (hCut : FoundCut ts cs mid) (hAhead : ahead mid = some c) (hMark : c ∈ statementMarks) :
    varDecl ctx cs = .rejected := by
  -- the mark behind the name is no point, and it starts no name either
  have hNoPoint : ahead mid ≠ some '.' := by
    rw [hAhead]
    rintro hEq
    cases hEq
    exact absurd hMark (by decide)
  have hNoName : ident ctx mid = .rejected := by
    refine ident_rejects (all_ahead hAhead ?_)
    have hMarks : statementMarks.any isNameStart = false := by decide
    rw [← Bool.not_eq_true]
    exact List.any_eq_false.mp hMarks c hMark
  rcases h.typeRef_cases hCut ctx with
    hNone | ⟨type, us, id', cs', hType, hTail, hTailCut⟩ | ⟨id', hType⟩
  · exact bind_of_rejected hNone
  · -- the rest of the name is the variable, and no point follows it
    obtain ⟨id'', hIdent, -⟩ := hTail.accepted hTailCut ctx
    rw [varDecl, bind_of_matched hType, bind_of_matched hIdent]
    exact bind_of_rejected (symbol_rejects hNoPoint)
  · -- the name is used up, and no variable follows it
    rw [varDecl, bind_of_matched hType]
    exact bind_of_rejected hNoName

/-- The declarations of a block end where its statements begin. -/
theorem varDecl_rejects_statement (h : StartsStmt ts) (hCut : FoundCut ts cs rest) :
    varDecl ctx cs = .rejected := by
  rcases h with ⟨k, us, hWord, rfl⟩ | ⟨us, id, vs, c, s, ws, hId, hMark, rfl, rfl⟩
  · obtain ⟨mid, hKeyword, -⟩ := hCut.uncons
    exact varDecl_rejects_keyword hWord hKeyword.single_inv.1
  · obtain ⟨mid, hIdCut, hMarkCut⟩ := hCut.split
    exact varDecl_rejects_name hId hIdCut (hMarkCut.ahead) hMark

/-! ## Blocks -/

/-- No `else` with its block follows, by which an `if` would go on. -/
def NoElse (cs : List Char) : Prop :=
  ∀ (ctx : Context) (stmt : Parser Stmt),
    (keyword .elseWord >>= fun _ => braced stmt) ctx cs = .rejected

/-- A statement does not start with the word for the other block. -/
theorem StartsStmt.noElse (h : StartsStmt ts) (hCut : FoundCut ts cs rest) : NoElse cs := by
  intro ctx stmt
  -- either another keyword stands there, or a name; should the name begin with this keyword, an
  -- underscore is behind it and no brace
  rcases h with ⟨k, us, hWord, rfl⟩ | ⟨us, id, vs, c, s, ws, hId, hMark, rfl, rfl⟩
  · obtain ⟨mid, hKeyword, -⟩ := hCut.uncons
    refine bind_of_rejected (keyword_rejects_keyword hKeyword.single_inv.1 ?_)
    rintro rfl
    exact absurd hWord (by decide)
  · obtain ⟨mid, hIdCut, -⟩ := hCut.split
    refine hId.rejected_behind hIdCut ?_
    intro cs' hAhead
    refine bind_of_rejected (symbol_rejects ?_)
    rw [hAhead]
    decide

/-- Where no letter is ahead there is no other block. -/
theorem noElse_of_ahead {c : Char} (hAhead : ahead cs = some c) (hLetter : c.isAlpha = false) :
    NoElse cs := by
  intro ctx stmt
  exact bind_of_rejected (keyword_rejects (all_ahead hAhead hLetter))

/-- Where no name can start there is no statement. -/
theorem statement_rejects (h : ∀ c ∈ ahead cs, isNameStart c = false) :
    statement ctx cs = .rejected := by
  have hKeyword : ∀ k : Keyword, keyword k ctx cs = .rejected := fun k =>
    keyword_rejects fun c hc => not_nameStart_alpha (h c hc)
  -- no keyword, no call and no location starts there
  have hIf : ifStmt statement ctx cs = .rejected :=
    bind_of_rejected (bind_of_rejected (hKeyword .ifWord))
  have hWhile : whileStmt statement ctx cs = .rejected :=
    bind_of_rejected (bind_of_rejected (hKeyword .whileWord))
  have hRead : readStmt ctx cs = .rejected := bind_of_rejected (hKeyword .input)
  have hWrite : writeStmt ctx cs = .rejected := bind_of_rejected (hKeyword .disp)
  have hReturn : returnStmt ctx cs = .rejected := bind_of_rejected (hKeyword .returnWord)
  have hCall : callStmt ctx cs = .rejected :=
    bind_of_rejected (bind_of_rejected (ident_rejects h))
  have hIncrement : incrementStmt ctx cs = .rejected := bind_of_rejected (location_rejects h)
  have hDecrement : decrementStmt ctx cs = .rejected := bind_of_rejected (location_rejects h)
  have hAssign : assignStmt ctx cs = .rejected :=
    bind_of_rejected (bind_of_rejected (location_rejects h))
  rw [statement_eq, statementRule, orElse_of_rejected hIf, orElse_of_rejected hWhile,
    orElse_of_rejected hRead, orElse_of_rejected hWrite, orElse_of_rejected hReturn,
    orElse_of_rejected hCall, orElse_of_rejected hIncrement, orElse_of_rejected hDecrement,
    hAssign]

/-- The tokens are read as the statement where no `else` follows. -/
def StmtAccepted (ctx : Context) (ts : List Token) (s : Stmt) : Prop :=
  ∀ cs rest, FoundCut ts cs rest → NoElse rest →
    ∃ s', statement ctx cs = .matched s' rest ∧ s'.unplaced = s.unplaced

/-- A block is read up to the bracket that closes it. -/
theorem block_accepted {c : Char} {decls : List VarDecl} {stmts : List (List Token × Stmt)}
    (hDecls : Rows DerivesVarDecl us decls)
    (hStmts : ∀ s ∈ stmts, StartsStmt s.1 ∧ StmtAccepted ctx s.1 s.2)
    (hCut : FoundCut (us ++ stmts.flatMap (·.1)) cs rest) (hEnd : ahead rest = some c)
    (hClosing : isNameStart c = false) :
    ∃ b, block statement ctx cs = .matched b rest ∧
      b.unplaced = (Block.mk decls (stmts.map (·.2))).unplaced := by
  obtain ⟨mid, hDeclsCut, hStmtsCut⟩ := hCut.split
  obtain ⟨decls', hDeclRuns, hDeclShapes⟩ := varDecls_accepted hDecls hDeclsCut ctx
  obtain ⟨stmts', hStmtRuns, hStmtShapes⟩ := runs_accepted statement Stmt.unplaced NoElse ctx
    (fun s hs cs rest hCut hNoElse => (hStmts s hs).2 cs rest hCut hNoElse)
    (fun s hs => (hStmts s hs).1.ne_nil) (fun s hs cs rest hCut => (hStmts s hs).1.noElse hCut)
    hStmtsCut (noElse_of_ahead hEnd (not_nameStart_alpha hClosing))
  have hEndStart : ∀ d ∈ ahead rest, isNameStart d = false := all_ahead hEnd hClosing
  -- the declarations stop at the first statement, or at the end of the block
  have hDeclStop : varDecl ctx mid = .rejected := by
    cases stmts with
    | nil =>
      obtain rfl := hStmtsCut.eq_of_nil
      exact bind_of_rejected (typeRef_rejects fun d hd => not_nameStart_alpha (hEndStart d hd))
    | cons s stmts =>
      obtain ⟨mid', hFirst, -⟩ := hStmtsCut.split
      exact varDecl_rejects_statement (hStmts s List.mem_cons_self).1 hFirst
  refine ⟨⟨decls', stmts'⟩, ?_, ?_⟩
  · rw [block, bind_of_matched (many_of_runs hDeclRuns hDeclStop),
      bind_of_matched (many_of_runs hStmtRuns (statement_rejects hEndStart))]
    rfl
  · rw [Block.unplaced_mk, hDeclShapes, hStmtShapes, Block.unplaced_mk, List.map_map]
    rfl

theorem braced_accepted {decls : List VarDecl} {stmts : List (List Token × Stmt)}
    (hDecls : Rows DerivesVarDecl us decls)
    (hStmts : ∀ s ∈ stmts, StartsStmt s.1 ∧ StmtAccepted ctx s.1 s.2)
    (hCut : FoundCut (enclosed '\x7b' '\x7d' (us ++ stmts.flatMap (·.1))) cs rest) :
    ∃ b, braced statement ctx cs = .matched b rest ∧
      b.unplaced = (Block.mk decls (stmts.map (·.2))).unplaced := by
  obtain ⟨cs₁, hOpen, hCut⟩ := hCut.uncons
  obtain ⟨cs₂, hBody, hClose⟩ := hCut.split
  -- the closing brace can start neither a variable nor a statement
  obtain ⟨b, hRead, hShape⟩ := block_accepted hDecls hStmts hBody (hClose.ahead)
    (by decide)
  refine ⟨b, ?_, hShape⟩
  rw [braced, bind_of_matched (symbol_accepted hOpen), bind_of_matched hRead,
    bind_of_matched (symbol_accepted hClose)]
  rfl

theorem condition_accepted {k : Keyword} {cond : Expr}
    (hCond : DerivesExpr ctx.dialect .assignment ts cond)
    (hCut : FoundCut (.keyword k :: enclosed '(' ')' ts) cs rest) :
    ∃ cond', condition k ctx cs = .matched cond' rest ∧ cond'.unplaced = cond.unplaced := by
  obtain ⟨cs₁, hKeyword, hCut⟩ := hCut.uncons
  obtain ⟨cs₂, hOpen, hCut⟩ := hCut.uncons
  obtain ⟨cs₃, hInner, hClose⟩ := hCut.split
  -- the closing bracket ends an expression on every level
  obtain ⟨cond', hRead, hShape⟩ := expression_accepted hCond hInner
    (ends_at (hClose.ahead) (by decide) _)
  refine ⟨cond', ?_, hShape⟩
  rw [condition, bind_of_matched (keyword_accepted hKeyword), parenthesized,
    bind_of_matched (symbol_accepted hOpen), bind_of_matched hRead,
    bind_of_matched (symbol_accepted hClose)]
  rfl

end NameResolution.Grammar
