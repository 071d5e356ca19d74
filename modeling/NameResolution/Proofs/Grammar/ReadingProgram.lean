import NameResolution.Proofs.Grammar.ReadingExpression

/-!
# Reading programs — a text that is accepted is cut into the tokens of a derivation

A statement that starts with a name has been reached through the alternative of `return`, which has
rejected the text. Had the name started with `return` and an underscore, that alternative would have
read the rest of the statement as its expression.

* `statement_reads`, `decl_reads` — statements and declarations.
* `parse_seen`, `parse_reads` — whole texts.
-/

namespace NameResolution.Grammar

open NameResolution.Grammar.Parser

variable {α : Type} {ctx : Context} {cs mid rest : List Char} {e : Expr}

/-! ## Behind a keyword that starts a name -/

/-- A name that a keyword with an underscore opens can be read as that keyword and another name,
which is how it is read where the keyword is tried first. -/
theorem opened_split {k : Keyword} {id : Ident} (hId : ident ctx cs = .matched id mid)
    (hOpens : k.Opens id.name) :
    ∃ cs' id', keyword k ctx cs = .matched () cs' ∧ ident ctx cs' = .matched id' mid ∧
      ahead cs' = some '_' := by
  obtain ⟨tail, hWord⟩ := hOpens
  obtain ⟨-, -, hName, hText, hEnd⟩ := ident_eq_matched.mp hId
  rw [List.append_assoc] at hWord
  -- the underscore belongs to no trivia, so the second name stands right behind the keyword
  have hStart : skipTrivia ('_' :: tail ++ mid) = '_' :: tail ++ mid :=
    skipTrivia_of_starts (by decide)
  refine ⟨'_' :: tail ++ mid, ⟨ctx.locate (skipTrivia ('_' :: tail ++ mid)),
    String.ofList ('_' :: tail), none⟩, keyword_opens_name hText hWord.symm, ?_, ?_⟩
  · refine ident_eq_matched.mpr ⟨rfl, rfl, isName_tail hName hWord.symm, ?_, hEnd⟩
    rw [hStart, String.toList_ofList]
  · rw [ahead, hStart]
    rfl

/-- Had a call started with `return` and an underscore, it would have been read as the expression
of a `return`. -/
theorem returnStmt_of_call {callee : Ident} {args : List Expr}
    (hParts : callParts expression ctx cs = .matched (callee, args) mid)
    (hPoint : symbol ['.'] ctx mid = .matched () rest)
    (hOpens : Keyword.Opens .returnWord callee.name) :
    ∃ s, returnStmt ctx cs = .matched s rest := by
  obtain ⟨id, cs₁, hId, hParts⟩ := bind_eq_matched.mp hParts
  obtain ⟨u, cs₂, hOpen, hParts⟩ := bind_eq_matched.mp hParts
  obtain ⟨xs, cs₃, hArgs, hParts⟩ := bind_eq_matched.mp hParts
  obtain ⟨v, cs₄, hClose, hPure⟩ := bind_eq_matched.mp hParts
  obtain ⟨hEq, rfl⟩ := pure_eq_matched.mp hPure
  obtain ⟨rfl, rfl⟩ := Prod.ext_iff.mp hEq
  -- `return` is read off the callee, and the rest of its name is the callee of the same call
  obtain ⟨cs', id', hReturn, hId', hAhead⟩ := opened_split hId hOpens
  have hCall : call expression ctx cs' = .matched (.call id' xs) cs₄ := by
    have hParts' : callParts expression ctx cs' = .matched (id', xs) cs₄ := by
      rw [callParts, bind_of_matched hId', bind_of_matched hOpen, bind_of_matched hArgs,
        bind_of_matched hClose]
      rfl
    rw [call, bind_of_matched hParts']
    rfl
  have hPrimary : primary expression ctx cs' = .matched (.call id' xs) cs₄ := by
    rw [primary_without_literal, orElse_of_matched hCall]
    · exact keyword_rejects (all_ahead hAhead (by decide))
    · exact keyword_rejects (all_ahead hAhead (by decide))
    · exact all_ahead hAhead (by decide)
    · rw [hAhead]
      decide
  have hAssign : assignment expression ctx cs' = .rejected := by
    have hBracket := ahead_of_symbol hOpen
    refine assignment_rejects (location_of_ident hId' ?_) ?_
    · rw [hBracket]
      decide
    · rw [hBracket]
      decide
  have hEnds : Ends .assignment cs₄ :=
    ends_of_ahead (all_ahead (ahead_of_symbol hPoint) (by decide))
  -- as a whole expression, the call ends at the point
  have hExpr : expression ctx cs' = .matched (.call id' xs) cs₄ := by
    rw [expression_eq]
    exact levelParser_of_primary hPrimary (sign_rejects (all_ahead hAhead (by decide))) hEnds
      fun _ => hAssign
  refine ⟨.ret (some (.call id' xs)), ?_⟩
  rw [returnStmt, bind_of_matched hReturn, bind_of_matched (optional_of_matched hExpr),
    bind_of_matched hPoint]
  rfl

/-- The same for an assignment. -/
theorem returnStmt_of_assignment {target : Loc} {value : Expr}
    (hParts : assignmentParts expression ctx cs = .matched (target, value) mid)
    (hPoint : symbol ['.'] ctx mid = .matched () rest)
    (hOpens : Keyword.Opens .returnWord target.root.name) :
    ∃ s, returnStmt ctx cs = .matched s rest := by
  obtain ⟨loc, cs₁, hTarget, hParts⟩ := bind_eq_matched.mp hParts
  obtain ⟨u, cs₂, hSign, hParts⟩ := bind_eq_matched.mp hParts
  obtain ⟨v, cs₃, hSingle, hParts⟩ := bind_eq_matched.mp hParts
  obtain ⟨x, cs₄, hValue, hPure⟩ := bind_eq_matched.mp hParts
  obtain ⟨hEq, rfl⟩ := pure_eq_matched.mp hPure
  obtain ⟨rfl, rfl⟩ := Prod.ext_iff.mp hEq
  -- the target is its root and the fields behind it; `return` is read off the root
  obtain ⟨cs₀, hRoot⟩ := location_root hTarget
  obtain ⟨first, cs₀', hFirst, hTarget'⟩ := bind_eq_matched.mp hTarget
  obtain ⟨rfl, rfl⟩ : first = loc.root ∧ cs₀' = cs₀ := by
    rw [hRoot] at hFirst
    cases hFirst
    exact ⟨rfl, rfl⟩
  obtain ⟨fields, cs₁', hFields, hPure⟩ := bind_eq_matched.mp hTarget'
  obtain ⟨-, rfl⟩ := pure_eq_matched.mp hPure
  obtain ⟨cs', id', hReturn, hId', -⟩ := opened_split hRoot hOpens
  have hLoc : location ctx cs' = .matched (fields.foldl Loc.field (.var id')) cs₁' := by
    rw [location, bind_of_matched hId', bind_of_matched hFields]
    rfl
  have hAssign : assignment expression ctx cs' =
      .matched (.assign (fields.foldl Loc.field (.var id')) x) cs₄ := by
    have hParts' : assignmentParts expression ctx cs' =
        .matched (fields.foldl Loc.field (.var id'), x) cs₄ := by
      rw [assignmentParts, bind_of_matched hLoc, bind_of_matched hSign, bind_of_matched hSingle,
        bind_of_matched hValue]
      rfl
    rw [assignment, bind_of_matched hParts']
    rfl
  have hExpr : expression ctx cs' =
      .matched (.assign (fields.foldl Loc.field (.var id')) x) cs₄ := by
    rw [expression_eq]
    exact orElse_of_matched hAssign
  refine ⟨.ret (some (.assign (fields.foldl Loc.field (.var id')) x)), ?_⟩
  rw [returnStmt, bind_of_matched hReturn, bind_of_matched (optional_of_matched hExpr),
    bind_of_matched hPoint]
  rfl

/-! ## Types and variables -/

theorem typeRef_reads : Reads ctx true typeRef DerivesType := by
  -- the three basic types are one keyword each
  have hBasic : ∀ {k : Keyword} {type type' : TypeRef} {ctx cs rest},
      (keyword k >>= fun _ => pure type) ctx cs = .matched type' rest →
      SeenCut ctx true [.keyword k] cs rest ∧ type' = type := by
    intro k type type' ctx cs rest h
    obtain ⟨u, mid, hKeyword, hPure⟩ := bind_eq_matched.mp h
    obtain ⟨rfl, rfl⟩ := pure_eq_matched.mp hPure
    exact ⟨keyword_reads hKeyword, rfl⟩
  intro cs type rest h
  rcases orElse_eq_matched.mp h with h | ⟨-, h⟩
  · obtain ⟨hCut, rfl⟩ := hBasic h
    exact ⟨_, hCut, .boolean⟩
  rcases orElse_eq_matched.mp h with h | ⟨-, h⟩
  · obtain ⟨hCut, rfl⟩ := hBasic h
    exact ⟨_, hCut, .integer⟩
  rcases orElse_eq_matched.mp h with h | ⟨-, h⟩
  · obtain ⟨hCut, rfl⟩ := hBasic h
    exact ⟨_, hCut, .void⟩
  obtain ⟨u, mid, hKeyword, h⟩ := bind_eq_matched.mp h
  obtain ⟨id, mid', hId, hPure⟩ := bind_eq_matched.mp h
  obtain ⟨rfl, rfl⟩ := pure_eq_matched.mp hPure
  obtain ⟨ts, hCut, hDerives⟩ := ident_reads hId
  exact ⟨_, (keyword_reads hKeyword).append hCut, .struct hDerives⟩

theorem varDecl_reads : Reads ctx true varDecl DerivesVarDecl := by
  intro cs d rest h
  obtain ⟨type, cs₁, hType, h⟩ := bind_eq_matched.mp h
  obtain ⟨id, cs₂, hId, h⟩ := bind_eq_matched.mp h
  obtain ⟨u, cs₃, hPoint, hPure⟩ := bind_eq_matched.mp h
  obtain ⟨rfl, rfl⟩ := pure_eq_matched.mp hPure
  obtain ⟨ts, hTypeCut, hTypeDerives⟩ := typeRef_reads hType
  obtain ⟨us, hIdCut, hIdDerives⟩ := ident_reads hId
  -- type, name and full stop, each behind the text of the one in front
  exact ⟨_, (hTypeCut.append hIdCut).append (symbol_reads (by decide) hPoint),
    .intro hTypeDerives hIdDerives⟩

/-! ## Statements -/

section Statements

variable {stmt : Parser Stmt} (hStmt : Reads ctx true stmt (DerivesStmt ctx.dialect))
include hStmt

/-- What is read as a block is rows of variables and of statements. -/
theorem block_reads : Reads ctx true (block stmt) fun ts b =>
    ∃ us, Rows DerivesVarDecl us b.decls ∧ ∃ rows : List (List Token × Stmt),
      (∀ row ∈ rows, DerivesStmt ctx.dialect row.1 row.2) ∧ b.stmts = rows.map (·.2) ∧
      ts = us ++ rows.flatMap (·.1) := by
  intro cs b rest h
  obtain ⟨decls, cs₁, hDecls, h⟩ := bind_eq_matched.mp h
  obtain ⟨stmts, cs₂, hStmts, hPure⟩ := bind_eq_matched.mp h
  obtain ⟨rfl, rfl⟩ := pure_eq_matched.mp hPure
  obtain ⟨us, hDeclCut, hDeclRows⟩ := many_reads varDecl_reads hDecls
  obtain ⟨vs, hStmtCut, rows, hRows, rfl, rfl⟩ := many_reads hStmt hStmts
  exact ⟨_, hDeclCut.append hStmtCut, us, hDeclRows, rows, hRows, rfl, rfl⟩

/-- What is read between braces is a block between two brace tokens. -/
theorem braced_reads : Reads ctx true (braced stmt) fun ts b =>
    ∃ us, Rows DerivesVarDecl us b.decls ∧ ∃ rows : List (List Token × Stmt),
      (∀ row ∈ rows, DerivesStmt ctx.dialect row.1 row.2) ∧ b.stmts = rows.map (·.2) ∧
      ts = enclosed '\x7b' '\x7d' (us ++ rows.flatMap (·.1)) := by
  intro cs b rest h
  obtain ⟨u, cs₁, hOpen, h⟩ := bind_eq_matched.mp h
  obtain ⟨body, cs₂, hBody, h⟩ := bind_eq_matched.mp h
  obtain ⟨v, cs₃, hClose, hPure⟩ := bind_eq_matched.mp h
  obtain ⟨rfl, rfl⟩ := pure_eq_matched.mp hPure
  obtain ⟨ts, hCut, us, hDecls, rows, hRows, hValues, rfl⟩ := block_reads hStmt hBody
  -- the braces are put around what the block has been read as
  exact ⟨enclosed '\x7b' '\x7d' (us ++ rows.flatMap (·.1)),
    (symbol_reads (by decide) hOpen).append (hCut.append (symbol_reads (by decide) hClose)),
    us, hDecls, rows, hRows, hValues, rfl⟩

omit hStmt in
/-- What is read as a condition derives it, behind its keyword. -/
theorem condition_reads (k : Keyword) : Reads ctx true (condition k) fun ts e =>
    ∃ us, ts = .keyword k :: enclosed '(' ')' us ∧ DerivesExpr ctx.dialect .assignment us e := by
  intro cs e rest h
  obtain ⟨u, cs₁, hKeyword, h⟩ := bind_eq_matched.mp h
  obtain ⟨ts, hCut, us, rfl, hDerives⟩ := parenthesized_reads expression_reads h
  exact ⟨_, (keyword_reads hKeyword).append hCut, us, rfl, hDerives⟩

/-- What is read as a condition with its blocks derives it. -/
theorem ifStmt_reads : Reads ctx true (ifStmt stmt) (DerivesStmt ctx.dialect) := by
  intro cs s rest h
  obtain ⟨cond, cs₁, hCond, h⟩ := bind_eq_matched.mp h
  obtain ⟨⟨decls, stmts⟩, cs₂, hBody, h⟩ := bind_eq_matched.mp h
  obtain ⟨otherwise?, cs₃, hElse, h⟩ := bind_eq_matched.mp h
  obtain ⟨ts, hCondCut, us, rfl, hCondDerives⟩ := condition_reads .ifWord hCond
  obtain ⟨vs, hBodyCut, ds, hDecls, rows, hRows, rfl, rfl⟩ := braced_reads hStmt hBody
  -- the other block is there or not
  rcases optional_eq_matched.mp hElse with ⟨⟨decls', stmts'⟩, rfl, hThere⟩ | ⟨rfl, -, rfl⟩
  · obtain ⟨rfl, rfl⟩ := pure_eq_matched.mp h
    obtain ⟨u, cs₄, hKeyword, hBody'⟩ := bind_eq_matched.mp hThere
    obtain ⟨vs', hElseCut, ds', hDecls', rows', hRows', rfl, rfl⟩ := braced_reads hStmt hBody'
    exact ⟨_, (hCondCut.append hBodyCut).append ((keyword_reads hKeyword).append hElseCut),
      .ifElse hCondDerives hDecls rows hRows hDecls' rows' hRows'⟩
  · obtain ⟨rfl, rfl⟩ := pure_eq_matched.mp h
    exact ⟨_, hCondCut.append hBodyCut, .ifThen hCondDerives hDecls rows hRows⟩

theorem whileStmt_reads : Reads ctx true (whileStmt stmt) (DerivesStmt ctx.dialect) := by
  intro cs s rest h
  obtain ⟨cond, cs₁, hCond, h⟩ := bind_eq_matched.mp h
  obtain ⟨⟨decls, stmts⟩, cs₂, hBody, hPure⟩ := bind_eq_matched.mp h
  obtain ⟨rfl, rfl⟩ := pure_eq_matched.mp hPure
  obtain ⟨ts, hCondCut, us, rfl, hCondDerives⟩ := condition_reads .whileWord hCond
  obtain ⟨vs, hBodyCut, ds, hDecls, rows, hRows, rfl, rfl⟩ := braced_reads hStmt hBody
  exact ⟨_, hCondCut.append hBodyCut, .loop hCondDerives hDecls rows hRows⟩

omit hStmt in
theorem readStmt_reads : Reads ctx true readStmt (DerivesStmt ctx.dialect) := by
  intro cs s rest h
  obtain ⟨u, cs₁, hKeyword, h⟩ := bind_eq_matched.mp h
  obtain ⟨v, cs₂, hArrow, h⟩ := bind_eq_matched.mp h
  obtain ⟨target, cs₃, hTarget, h⟩ := bind_eq_matched.mp h
  obtain ⟨w, cs₄, hPoint, hPure⟩ := bind_eq_matched.mp h
  obtain ⟨rfl, rfl⟩ := pure_eq_matched.mp hPure
  obtain ⟨ts, hCut, hLoc⟩ := location_reads hTarget
  exact ⟨_, (keyword_reads hKeyword).append ((symbol_reads (by decide) hArrow).append
    (hCut.append (symbol_reads (by decide) hPoint))), .read hLoc⟩

omit hStmt in
theorem writeStmt_reads : Reads ctx true writeStmt (DerivesStmt ctx.dialect) := by
  intro cs s rest h
  obtain ⟨u, cs₁, hKeyword, h⟩ := bind_eq_matched.mp h
  obtain ⟨v, cs₂, hArrow, h⟩ := bind_eq_matched.mp h
  obtain ⟨value, cs₃, hValue, h⟩ := bind_eq_matched.mp h
  obtain ⟨w, cs₄, hPoint, hPure⟩ := bind_eq_matched.mp h
  obtain ⟨rfl, rfl⟩ := pure_eq_matched.mp hPure
  obtain ⟨ts, hCut, hDerives⟩ := expression_reads hValue
  exact ⟨_, (keyword_reads hKeyword).append ((symbol_reads (by decide) hArrow).lead rfl
    (hCut.append (symbol_reads (by decide) hPoint))), .write hDerives⟩

omit hStmt in
theorem returnStmt_reads : Reads ctx true returnStmt (DerivesStmt ctx.dialect) := by
  intro cs s rest h
  obtain ⟨u, cs₁, hKeyword, h⟩ := bind_eq_matched.mp h
  obtain ⟨value?, cs₂, hValue, h⟩ := bind_eq_matched.mp h
  obtain ⟨w, cs₃, hPoint, hPure⟩ := bind_eq_matched.mp h
  obtain ⟨rfl, rfl⟩ := pure_eq_matched.mp hPure
  have hEnd : SeenCut ctx true [.symbol ['.']] cs₂ cs₃ := symbol_reads (by decide) hPoint
  -- with a value or without one; in the second case nothing was read between the two tokens
  rcases optional_eq_matched.mp hValue with ⟨value, rfl, hThere⟩ | ⟨rfl, -, rfl⟩
  · obtain ⟨ts, hCut, hDerives⟩ := expression_reads hThere
    exact ⟨_, (keyword_reads hKeyword).lead rfl (hCut.append hEnd), .retSome hDerives⟩
  · exact ⟨_, (keyword_reads hKeyword).append hEnd, .retNone⟩

omit hStmt in
/-- What is read as an increment or a decrement derives it. -/
theorem steppedStmt_reads {s : List Char} {f : Loc → Stmt} {derives : List Token → Stmt → Prop}
    (hPlain : s ≠ [] ∧ s ≠ ['+'] ∧ s ≠ ['-'])
    (hDerives : ∀ {ts loc}, DerivesLoc ts loc →
      derives (ts ++ [.symbol s, .symbol ['.']]) (f loc)) :
    Reads ctx true (location >>= fun target => symbol s >>= fun _ => symbol ['.'] >>= fun _ =>
      pure (f target)) derives := by
  intro cs stmt rest h
  obtain ⟨target, cs₁, hTarget, h⟩ := bind_eq_matched.mp h
  obtain ⟨u, cs₂, hStep, h⟩ := bind_eq_matched.mp h
  obtain ⟨w, cs₃, hPoint, hPure⟩ := bind_eq_matched.mp h
  obtain ⟨rfl, rfl⟩ := pure_eq_matched.mp hPure
  obtain ⟨ts, hCut, hLoc⟩ := location_reads hTarget
  exact ⟨_, hCut.append ((symbol_reads hPlain hStep).append (symbol_reads (by decide) hPoint)),
    hDerives hLoc⟩

/-- Every choice of a statement derives it, if the statements inside do. -/
theorem statementRule_reads : Reads ctx true (statementRule stmt) (DerivesStmt ctx.dialect) := by
  intro cs s rest h
  rcases orElse_eq_matched.mp h with hIf | ⟨-, h⟩
  · exact ifStmt_reads hStmt hIf
  rcases orElse_eq_matched.mp h with hWhile | ⟨-, h⟩
  · exact whileStmt_reads hStmt hWhile
  rcases orElse_eq_matched.mp h with hRead | ⟨-, h⟩
  · exact readStmt_reads hRead
  rcases orElse_eq_matched.mp h with hWrite | ⟨-, h⟩
  · exact writeStmt_reads hWrite
  rcases orElse_eq_matched.mp h with hReturn | ⟨hNoReturn, h⟩
  · exact returnStmt_reads hReturn
  rcases orElse_eq_matched.mp h with hCall | ⟨-, h⟩
  · obtain ⟨⟨callee, args⟩, mid, hParts, hCall⟩ := bind_eq_matched.mp hCall
    obtain ⟨u, mid', hPoint, hPure⟩ := bind_eq_matched.mp hCall
    obtain ⟨rfl, rfl⟩ := pure_eq_matched.mp hPure
    -- otherwise the alternative before would have read it as a `return`
    have hOpening : ctx.dialect.opening callee.name := by
      intro hOpens
      obtain ⟨s, hReturn⟩ := returnStmt_of_call hParts hPoint hOpens
      rw [hReturn] at hNoReturn
      cases hNoReturn
    obtain ⟨ts, us, rows, cs₁, hCut, -, hCallee, hRows, rfl, hList⟩ :=
      callParts_reads expression_reads hParts
    exact ⟨_, hCut.append (symbol_reads (by decide) hPoint),
      .call hCallee hOpening rows hRows hList⟩
  rcases orElse_eq_matched.mp h with hIncrement | ⟨-, h⟩
  · exact steppedStmt_reads (by decide) (fun hLoc => .increment hLoc) hIncrement
  rcases orElse_eq_matched.mp h with hDecrement | ⟨-, h⟩
  · exact steppedStmt_reads (by decide) (fun hLoc => .decrement hLoc) hDecrement
  obtain ⟨⟨target, value⟩, mid, hParts, h⟩ := bind_eq_matched.mp h
  obtain ⟨u, mid', hPoint, hPure⟩ := bind_eq_matched.mp h
  obtain ⟨rfl, rfl⟩ := pure_eq_matched.mp hPure
  -- the same for an assignment
  have hOpening : ctx.dialect.opening target.root.name := by
    intro hOpens
    obtain ⟨s, hReturn⟩ := returnStmt_of_assignment hParts hPoint hOpens
    rw [hReturn] at hNoReturn
    cases hNoReturn
  obtain ⟨ts, us, hCut, hTarget, hValue⟩ := assignmentParts_reads expression_reads hParts
  refine ⟨ts ++ .symbol ['='] :: (us ++ [.symbol ['.']]), ?_, .assign hTarget hOpening hValue⟩
  have hWhole := hCut.append (symbol_reads (by decide) hPoint)
  rw [List.append_assoc] at hWhole
  exact hWhole

end Statements

/-- What is read as a statement derives it. -/
theorem statement_reads : Reads ctx true statement (DerivesStmt ctx.dialect) :=
  fix_reads fun hStmt => statementRule_reads hStmt

/-! ## Declarations and programs -/

theorem structDecl_reads :
    Reads ctx true structDecl fun ts s => DerivesDecl ctx.dialect ts (.struct s) := by
  intro cs s rest h
  obtain ⟨u, cs₁, hKeyword, h⟩ := bind_eq_matched.mp h
  obtain ⟨id, cs₂, hId, h⟩ := bind_eq_matched.mp h
  obtain ⟨v, cs₃, hOpen, h⟩ := bind_eq_matched.mp h
  obtain ⟨fields, cs₄, hFields, h⟩ := bind_eq_matched.mp h
  obtain ⟨w, cs₅, hClose, hPure⟩ := bind_eq_matched.mp h
  obtain ⟨rfl, rfl⟩ := pure_eq_matched.mp hPure
  -- the first field, and a run of others
  obtain ⟨first, cs₆, hFirst, hFields⟩ := bind_eq_matched.mp hFields
  obtain ⟨others, cs₇, hOthers, hPure⟩ := bind_eq_matched.mp hFields
  obtain ⟨rfl, rfl⟩ := pure_eq_matched.mp hPure
  obtain ⟨ts, hIdCut, hIdDerives⟩ := ident_reads hId
  obtain ⟨us, hFirstCut, hFirstDerives⟩ := varDecl_reads hFirst
  obtain ⟨vs, hRestCut, hRows⟩ := many_reads varDecl_reads hOthers
  have hBrackets : SeenCut ctx true (enclosed '[' ']' (us ++ vs)) cs₂ cs₅ :=
    (symbol_reads (by decide) hOpen).append
      ((hFirstCut.append hRestCut).append (symbol_reads (by decide) hClose))
  exact ⟨_, (keyword_reads hKeyword).append (hIdCut.append hBrackets),
    .struct hIdDerives (.cons hFirstDerives hRows) (List.cons_ne_nil _ _)⟩

theorem formal_reads : Reads ctx true formal DerivesFormal := by
  intro cs f rest h
  obtain ⟨type, cs₁, hType, h⟩ := bind_eq_matched.mp h
  obtain ⟨id, cs₂, hId, hPure⟩ := bind_eq_matched.mp h
  obtain ⟨rfl, rfl⟩ := pure_eq_matched.mp hPure
  obtain ⟨ts, hTypeCut, hTypeDerives⟩ := typeRef_reads hType
  obtain ⟨us, hIdCut, hIdDerives⟩ := ident_reads hId
  exact ⟨_, hTypeCut.append hIdCut, .intro hTypeDerives hIdDerives⟩

theorem funcDecl_reads :
    Reads ctx true funcDecl fun ts f => DerivesDecl ctx.dialect ts (.func f) := by
  intro cs f rest h
  obtain ⟨result, cs₁, hResult, h⟩ := bind_eq_matched.mp h
  obtain ⟨id, cs₂, hId, h⟩ := bind_eq_matched.mp h
  obtain ⟨u₁, cs₃, hOpen, h⟩ := bind_eq_matched.mp h
  obtain ⟨formals, cs₄, hFormals, h⟩ := bind_eq_matched.mp h
  obtain ⟨u₂, cs₅, hClose, h⟩ := bind_eq_matched.mp h
  obtain ⟨u₃, cs₆, hOpen', h⟩ := bind_eq_matched.mp h
  obtain ⟨⟨decls, stmts⟩, cs₇, hBody, h⟩ := bind_eq_matched.mp h
  obtain ⟨u₄, cs₈, hClose', hPure⟩ := bind_eq_matched.mp h
  obtain ⟨rfl, rfl⟩ := pure_eq_matched.mp hPure
  obtain ⟨ts, hResultCut, hResultDerives⟩ := typeRef_reads hResult
  obtain ⟨us, hIdCut, hIdDerives⟩ := ident_reads hId
  obtain ⟨rows, vs, hListCut, hRows, rfl, hList⟩ := sepBy_reads formal_reads.weaken hFormals
  obtain ⟨ws, hBodyCut, ds, hDecls, stmtRows, hStmtRows, rfl, rfl⟩ :=
    block_reads statement_reads hBody
  -- the formals in their brackets, then the body in its own
  have hBrackets : SeenCut ctx true (enclosed '[' ']' vs) cs₂ cs₅ :=
    (symbol_reads (by decide) hOpen).lead rfl (hListCut.append (symbol_reads (by decide) hClose))
  have hBrackets' :
      SeenCut ctx true (enclosed '[' ']' (ds ++ stmtRows.flatMap (·.1))) cs₅ cs₈ :=
    (symbol_reads (by decide) hOpen').append (hBodyCut.append (symbol_reads (by decide) hClose'))
  exact ⟨_, ((hResultCut.append hIdCut).append hBrackets).append hBrackets',
    .func hResultDerives hIdDerives rows hRows hList hDecls ⟨stmtRows, hStmtRows, rfl, rfl⟩⟩

/-- What is read as a declaration derives it. -/
theorem decl_reads : Reads ctx true decl (DerivesDecl ctx.dialect) := by
  intro cs d rest h
  rcases orElse_eq_matched.mp h with hStruct | ⟨-, h⟩
  · obtain ⟨s, hParts, rfl⟩ := map_eq_matched.mp hStruct
    exact structDecl_reads hParts
  rcases orElse_eq_matched.mp h with hFunc | ⟨-, h⟩
  · obtain ⟨f, hParts, rfl⟩ := map_eq_matched.mp hFunc
    exact funcDecl_reads hParts
  · obtain ⟨v, hVar, rfl⟩ := map_eq_matched.mp h
    obtain ⟨ts, hCut, hDerives⟩ := varDecl_reads hVar
    exact ⟨ts, hCut, .var hDerives⟩

/-- Only a match of the whole program is an answer without an error, and it leaves nothing. -/
theorem parseUpTo_eq_ok {limit : Nat} {source : String} {p : Program} :
    parseUpTo limit source = .ok p ↔
      program (contextOf limit source.toList) source.toList = .matched p [] := by
  constructor
  · intro h
    rw [parseUpTo] at h
    cases hOutcome : program (contextOf limit source.toList) source.toList with
    | matched q rest =>
      simp only [hOutcome] at h
      cases h
      -- the end of the text is part of the rule, so nothing is left
      obtain ⟨decls, mid, hDecls, hParts⟩ := bind_eq_matched.mp hOutcome
      obtain ⟨u, mid', hEnd, hPure⟩ := bind_eq_matched.mp hParts
      rw [(pure_eq_matched.mp hPure).2] at hEnd
      rw [(endOfText_eq_matched.mp hEnd).2]
    | rejected =>
      simp only [hOutcome] at h
      cases h
    | tooLong digits =>
      simp only [hOutcome] at h
      cases h
  · intro h
    simp only [parseUpTo, h]

/-- **Soundness.** An accepted text is cut into tokens up to some trivia at its end, each leaf at
its position and each sign as the parser finds it, and these tokens derive the tree. -/
theorem parseUpTo_seen {limit : Nat} {source : String} {p : Program}
    (h : parseUpTo limit source = .ok p) :
    ∃ ts rest, SeenCut (contextOf limit source.toList) true ts source.toList rest ∧
      skipTrivia rest = [] ∧ DerivesProgram (.orderedUpTo limit) ts p := by
  obtain ⟨decls, mid, hDecls, hParts⟩ := bind_eq_matched.mp (parseUpTo_eq_ok.mp h)
  obtain ⟨u, mid', hEnd, hPure⟩ := bind_eq_matched.mp hParts
  obtain ⟨rfl, -⟩ := pure_eq_matched.mp hPure
  obtain ⟨ts, hCut, hRows⟩ := many_reads decl_reads hDecls
  exact ⟨ts, mid, hCut, (endOfText_eq_matched.mp hEnd).1, hRows⟩

theorem parse_seen {source : String} {p : Program} (h : parse source = .ok p) :
    ∃ ts rest, SeenCut (contextOf maxDigits source.toList) true ts source.toList rest ∧
      skipTrivia rest = [] ∧ DerivesProgram .ordered ts p :=
  parseUpTo_seen h

theorem parse_reads {source : String} {p : Program} (h : parse source = .ok p) :
    ∃ ts rest, ReadCut (contextOf maxDigits source.toList) ts source.toList rest ∧
      skipTrivia rest = [] ∧ DerivesProgram .ordered ts p := by
  obtain ⟨ts, rest, hCut, hEnd, hDerives⟩ := parse_seen h
  exact ⟨ts, rest, hCut.cut, hEnd, hDerives⟩

end NameResolution.Grammar
