import NameResolution.Proofs.Grammar.AcceptingBlock

/-!
# Accepting statements — each alternative leaves the sentences of the others alone

A statement that starts with a keyword is rejected by every alternative of another keyword. One that
starts with a name can be taken for a keyword and an underscore, but then the next symbol of that
alternative is missing, so it is rejected too. A `return` needs no such symbol: an assignment or a
call that starts with `return_` is lost to it, but an increment or a decrement is not.

* `StmtAccepted.call`, `StmtAccepted.assign`, `step_accepted` — what starts with a name.
* `DerivesStmt.accepted` — every statement is accepted.
-/

namespace NameResolution.Grammar

open NameResolution.Grammar.Parser

variable {α : Type} {ctx : Context} {cs mid rest : List Char} {ts us : List Token}

/-! ## Statements that start with a keyword -/

section Keywords

variable {k : Keyword} (hText : skipTrivia cs = k.chars ++ rest)
include hText

/-- Where one keyword stands the choices of another one are out. -/
theorem keyword_bind_rejects {k' : Keyword} {next : Unit → Parser α} (hOther : k' ≠ k) :
    (keyword k' >>= next) ctx cs = .rejected :=
  bind_of_rejected (keyword_rejects_keyword hText hOther)

theorem ifStmt_rejects (hOther : .ifWord ≠ k) : ifStmt statement ctx cs = .rejected :=
  bind_of_rejected (keyword_bind_rejects hText hOther)

theorem whileStmt_rejects (hOther : .whileWord ≠ k) : whileStmt statement ctx cs = .rejected :=
  bind_of_rejected (keyword_bind_rejects hText hOther)

end Keywords

theorem StmtAccepted.ifThen {cond : Expr} {decls : List VarDecl}
    {stmts : List (List Token × Stmt)} (hCond : DerivesExpr ctx.dialect .assignment ts cond)
    (hDecls : Rows DerivesVarDecl us decls)
    (hStmts : ∀ s ∈ stmts, StartsStmt s.1 ∧ StmtAccepted ctx s.1 s.2) :
    StmtAccepted ctx
      (.keyword .ifWord :: enclosed '(' ')' ts ++
        enclosed '\x7b' '\x7d' (us ++ stmts.flatMap (·.1)))
      (.ifThen cond ⟨decls, stmts.map (·.2)⟩) := by
  intro cs rest hCut hNoElse
  obtain ⟨cs₁, hCondCut, hBody⟩ := hCut.split
  obtain ⟨cond', hCondRead, hCondShape⟩ := condition_accepted hCond hCondCut
  obtain ⟨b, hRead, hShape⟩ := braced_accepted hDecls hStmts hBody
  refine ⟨.ifThen cond' b, ?_, ?_⟩
  · rw [statement_eq]
    refine orElse_of_matched ?_
    -- no `else` follows, so the branch that may be missing is
    rw [ifStmt, bind_of_matched hCondRead, bind_of_matched hRead,
      bind_of_matched (optional_of_rejected (hNoElse ctx statement))]
    rfl
  · rw [Stmt.unplaced_ifThen, hCondShape, hShape, Stmt.unplaced_ifThen]

theorem StmtAccepted.ifElse {us' : List Token} {cond : Expr} {decls decls' : List VarDecl}
    {stmts stmts' : List (List Token × Stmt)} (hCond : DerivesExpr ctx.dialect .assignment ts cond)
    (hDecls : Rows DerivesVarDecl us decls)
    (hStmts : ∀ s ∈ stmts, StartsStmt s.1 ∧ StmtAccepted ctx s.1 s.2)
    (hDecls' : Rows DerivesVarDecl us' decls')
    (hStmts' : ∀ s ∈ stmts', StartsStmt s.1 ∧ StmtAccepted ctx s.1 s.2) :
    StmtAccepted ctx
      (.keyword .ifWord :: enclosed '(' ')' ts ++
        enclosed '\x7b' '\x7d' (us ++ stmts.flatMap (·.1)) ++ .keyword .elseWord ::
        enclosed '\x7b' '\x7d' (us' ++ stmts'.flatMap (·.1)))
      (.ifElse cond ⟨decls, stmts.map (·.2)⟩ ⟨decls', stmts'.map (·.2)⟩) := by
  intro cs rest hCut _
  obtain ⟨cs₂, hCut, hElseCut⟩ := hCut.split
  obtain ⟨cs₁, hCondCut, hBody⟩ := hCut.split
  obtain ⟨cs₃, hKeyword, hOtherwise⟩ := hElseCut.uncons
  obtain ⟨cond', hCondRead, hCondShape⟩ := condition_accepted hCond hCondCut
  obtain ⟨b, hRead, hShape⟩ := braced_accepted hDecls hStmts hBody
  obtain ⟨b', hRead', hShape'⟩ := braced_accepted hDecls' hStmts' hOtherwise
  -- the `else` belongs to this condition, because the block before it has been closed
  have hElse : (keyword .elseWord >>= fun _ => braced statement) ctx cs₂ = .matched b' rest := by
    rw [bind_of_matched (keyword_accepted hKeyword), hRead']
  refine ⟨.ifElse cond' b b', ?_, ?_⟩
  · rw [statement_eq]
    refine orElse_of_matched ?_
    rw [ifStmt, bind_of_matched hCondRead, bind_of_matched hRead,
      bind_of_matched (optional_of_matched hElse)]
    rfl
  · rw [Stmt.unplaced_ifElse, hCondShape, hShape, hShape', Stmt.unplaced_ifElse]

theorem StmtAccepted.loop {cond : Expr} {decls : List VarDecl} {stmts : List (List Token × Stmt)}
    (hCond : DerivesExpr ctx.dialect .assignment ts cond) (hDecls : Rows DerivesVarDecl us decls)
    (hStmts : ∀ s ∈ stmts, StartsStmt s.1 ∧ StmtAccepted ctx s.1 s.2) :
    StmtAccepted ctx
      (.keyword .whileWord :: enclosed '(' ')' ts ++
        enclosed '\x7b' '\x7d' (us ++ stmts.flatMap (·.1)))
      (.loop cond ⟨decls, stmts.map (·.2)⟩) := by
  intro cs rest hCut _
  obtain ⟨mid, hKeyword, -⟩ := FoundCut.uncons hCut
  obtain ⟨cs₁, hCondCut, hBody⟩ := hCut.split
  have hText : skipTrivia cs = Keyword.whileWord.chars ++ mid := hKeyword.single_inv.1
  obtain ⟨cond', hCondRead, hCondShape⟩ := condition_accepted hCond hCondCut
  obtain ⟨b, hRead, hShape⟩ := braced_accepted hDecls hStmts hBody
  refine ⟨.loop cond' b, ?_, ?_⟩
  -- the keyword excludes the choice in front
  · rw [statement_eq, statementRule, orElse_of_rejected (ifStmt_rejects hText (by decide))]
    refine orElse_of_matched ?_
    rw [whileStmt, bind_of_matched hCondRead, bind_of_matched hRead]
    rfl
  · rw [Stmt.unplaced_loop, hCondShape, hShape, Stmt.unplaced_loop]

theorem StmtAccepted.read {target : Loc} (hTarget : DerivesLoc ts target) :
    StmtAccepted ctx (.keyword .input :: .symbol ['-', '>'] :: (ts ++ [.symbol ['.']]))
      (.read target) := by
  intro cs rest hCut _
  obtain ⟨cs₁, hKeyword, hCut⟩ := hCut.uncons
  obtain ⟨cs₂, hArrow, hCut⟩ := hCut.uncons
  obtain ⟨cs₃, hTargetCut, hPoint⟩ := hCut.split
  have hText : skipTrivia cs = Keyword.input.chars ++ cs₁ := hKeyword.single_inv.1
  obtain ⟨target', hRead, hShape⟩ :=
    hTarget.accepted hTargetCut (by rw [hPoint.ahead]; decide) ctx
  refine ⟨.read target', ?_, ?_⟩
  -- statements that start with other words are tried first and fail at this one
  · rw [statement_eq, statementRule, orElse_of_rejected (ifStmt_rejects hText (by decide)),
      orElse_of_rejected (whileStmt_rejects hText (by decide))]
    refine orElse_of_matched ?_
    rw [readStmt, bind_of_matched (keyword_accepted hKeyword),
      bind_of_matched (symbol_accepted hArrow), bind_of_matched hRead,
      bind_of_matched (symbol_accepted hPoint)]
    rfl
  · rw [Stmt.unplaced_read, hShape, Stmt.unplaced_read]

theorem StmtAccepted.write {value : Expr} (hValue : DerivesExpr ctx.dialect .assignment ts value) :
    StmtAccepted ctx (.keyword .disp :: .symbol ['<', '-'] :: (ts ++ [.symbol ['.']]))
      (.write value) := by
  intro cs rest hCut _
  obtain ⟨cs₁, hKeyword, hCut⟩ := hCut.uncons
  obtain ⟨cs₂, hArrow, hCut⟩ := hCut.uncons
  obtain ⟨cs₃, hValueCut, hPoint⟩ := hCut.split
  have hText : skipTrivia cs = Keyword.disp.chars ++ cs₁ := hKeyword.single_inv.1
  -- the keyword tells the two statements apart, before their arrows do
  have hNoRead : readStmt ctx cs = .rejected := keyword_bind_rejects hText (by decide)
  obtain ⟨value', hRead, hShape⟩ :=
    expression_accepted hValue hValueCut (ends_at (hPoint.ahead) (by decide) _)
  refine ⟨.write value', ?_, ?_⟩
  · rw [statement_eq, statementRule, orElse_of_rejected (ifStmt_rejects hText (by decide)),
      orElse_of_rejected (whileStmt_rejects hText (by decide)), orElse_of_rejected hNoRead]
    refine orElse_of_matched ?_
    rw [writeStmt, bind_of_matched (keyword_accepted hKeyword),
      bind_of_matched (symbol_accepted hArrow), bind_of_matched hRead,
      bind_of_matched (symbol_accepted hPoint)]
    rfl
  · rw [Stmt.unplaced_write, hShape, Stmt.unplaced_write]

/-- Where `return` stands, the first four alternatives reject the text. -/
theorem statement_at_return (hText : skipTrivia cs = Keyword.returnWord.chars ++ rest) :
    statement ctx cs =
      (returnStmt <|> callStmt <|> incrementStmt <|> decrementStmt <|> assignStmt) ctx cs := by
  have hNoRead : readStmt ctx cs = .rejected := keyword_bind_rejects hText (by decide)
  have hNoWrite : writeStmt ctx cs = .rejected := keyword_bind_rejects hText (by decide)
  rw [statement_eq, statementRule, orElse_of_rejected (ifStmt_rejects hText (by decide)),
    orElse_of_rejected (whileStmt_rejects hText (by decide)), orElse_of_rejected hNoRead,
    orElse_of_rejected hNoWrite]

theorem StmtAccepted.retNone :
    StmtAccepted ctx [.keyword .returnWord, .symbol ['.']] (.ret none) := by
  intro cs rest hCut _
  obtain ⟨cs₁, hKeyword, hPoint⟩ := hCut.uncons
  have hAhead : ahead cs₁ = some '.' := hPoint.ahead
  -- the point starts no expression
  have hNoValue : expression ctx cs₁ = .rejected :=
    expression_rejects (all_ahead hAhead (by decide))
  have hText : skipTrivia cs = Keyword.returnWord.chars ++ cs₁ := hKeyword.single_inv.1
  refine ⟨.ret none, ?_, rfl⟩
  rw [statement_at_return hText]
  refine orElse_of_matched ?_
  rw [returnStmt, bind_of_matched (keyword_accepted hKeyword),
    bind_of_matched (optional_of_rejected hNoValue), bind_of_matched (symbol_accepted hPoint)]
  rfl

theorem StmtAccepted.retSome {value : Expr}
    (hValue : DerivesExpr ctx.dialect .assignment ts value) :
    StmtAccepted ctx (.keyword .returnWord :: (ts ++ [.symbol ['.']])) (.ret (some value)) := by
  intro cs rest hCut _
  obtain ⟨cs₁, hKeyword, hCut⟩ := hCut.uncons
  obtain ⟨cs₂, hValueCut, hPoint⟩ := hCut.split
  have hText : skipTrivia cs = Keyword.returnWord.chars ++ cs₁ := hKeyword.single_inv.1
  obtain ⟨value', hRead, hShape⟩ :=
    expression_accepted hValue hValueCut (ends_at (hPoint.ahead) (by decide) _)
  refine ⟨.ret (some value'), ?_, ?_⟩
  -- the word is no name here, so neither a call nor an assignment gets in the way
  · rw [statement_at_return hText]
    refine orElse_of_matched ?_
    rw [returnStmt, bind_of_matched (keyword_accepted hKeyword),
      bind_of_matched (optional_of_matched hRead), bind_of_matched (symbol_accepted hPoint)]
    rfl
  · rw [Stmt.unplaced_retSome, hShape, Stmt.unplaced_retSome]

/-! ## Statements that start with a name -/

/-- Where a name stands, the first four alternatives lack the symbol behind their keyword. -/
theorem statement_at_name {id : Ident} (hId : DerivesIdent us id) (hCut : FoundCut us cs mid) :
    statement ctx cs =
      (returnStmt <|> callStmt <|> incrementStmt <|> decrementStmt <|> assignStmt) ctx cs := by
  -- behind the keyword there is an underscore instead of a bracket or an arrow
  have hSymbol : ∀ {β : Type} {c : Char} {s : List Char} {next : Unit → Parser β} {cs' : List Char},
      c ≠ '_' → ahead cs' = some '_' → (symbol (c :: s) >>= next) ctx cs' = .rejected := by
    intro β c s next cs' hNe hAhead
    refine bind_of_rejected (symbol_rejects ?_)
    rw [hAhead]
    intro hEq
    exact hNe (Option.some.inj hEq).symm
  have hCondition : ∀ k : Keyword, condition k ctx cs = .rejected := fun k =>
    hId.rejected_behind hCut fun cs' hAhead => hSymbol (by decide) hAhead
  have hNoIf : ifStmt statement ctx cs = .rejected := bind_of_rejected (hCondition .ifWord)
  have hNoWhile : whileStmt statement ctx cs = .rejected :=
    bind_of_rejected (hCondition .whileWord)
  have hNoRead : readStmt ctx cs = .rejected :=
    hId.rejected_behind hCut fun cs' hAhead => hSymbol (by decide) hAhead
  have hNoWrite : writeStmt ctx cs = .rejected :=
    hId.rejected_behind hCut fun cs' hAhead => hSymbol (by decide) hAhead
  rw [statement_eq, statementRule, orElse_of_rejected hNoIf, orElse_of_rejected hNoWhile,
    orElse_of_rejected hNoRead, orElse_of_rejected hNoWrite]

/-- A name that may open a statement is not taken for a return. -/
theorem returnStmt_rejects {id : Ident} (hId : DerivesIdent us id) (hCut : FoundCut us cs mid)
    (hOpening : ctx.dialect.opening id.name) : returnStmt ctx cs = .rejected := by
  rcases hId.keyword_cases hCut .returnWord ctx with hReject | ⟨_, _, _, _, _, _, _, _, hOpens⟩
  · exact bind_of_rejected hReject
  · exact absurd hOpens hOpening

theorem StmtAccepted.call {callee : Ident} {args : List (List Token × Expr)}
    (hCallee : DerivesIdent ts callee) (hOpening : ctx.dialect.opening callee.name)
    (hArgs : ∀ arg ∈ args, DerivesExpr ctx.dialect .assignment arg.1 arg.2)
    (hList : ctx.dialect.Listed (args.map (·.1)) us) :
    StmtAccepted ctx (ts ++ enclosed '(' ')' us ++ [.symbol ['.']])
      (.call callee (args.map (·.2))) := by
  intro cs rest hCut _
  obtain ⟨cs₂, hCallCut, hPoint⟩ := hCut.split
  obtain ⟨cs₁, hCalleeCut, -⟩ := hCallCut.split
  obtain ⟨callee', args', hParts, hShape, hShapes⟩ :=
    callParts_accepted hCallee hList (fun arg hArg => (hArgs arg hArg).accepted) hCallCut
  refine ⟨.call callee' args', ?_, ?_⟩
  -- a return is tried before a call; it fails because the callee is admitted as an opening
  · rw [statement_at_name hCallee hCalleeCut,
      orElse_of_rejected (returnStmt_rejects hCallee hCalleeCut hOpening)]
    refine orElse_of_matched ?_
    rw [callStmt, bind_of_matched hParts]
    exact bind_of_matched (symbol_accepted hPoint)
  · rw [Stmt.unplaced_call, hShape, hShapes, Stmt.unplaced_call]

/-- Without a bracket behind it a location is no call. -/
theorem callStmt_rejects {target : Loc} (hTarget : DerivesLoc ts target)
    (hCut : FoundCut ts cs mid) (hNoCall : ahead mid ≠ some '(') :
    callStmt ctx cs = .rejected := by
  obtain ⟨us, vs, rfl, hRoot, hFields, -⟩ := hTarget.root
  obtain ⟨cs₁, hRootCut, hFieldsCut⟩ := hCut.split
  -- behind the root there is a colon, or what follows the target
  have hNoBracket : ahead cs₁ ≠ some '(' := by
    rcases hFields with rfl | ⟨ws, rfl⟩
    · obtain rfl := hFieldsCut.eq_of_nil
      exact hNoCall
    · rw [hFieldsCut.ahead]
      decide
  obtain ⟨root', hIdent, -⟩ := hRoot.accepted hRootCut ctx
  refine bind_of_rejected ?_
  rw [callParts, bind_of_matched hIdent]
  exact bind_of_rejected (symbol_rejects hNoBracket)

/-- A step that is spelt with other signs is rejected. -/
theorem stepped_rejects {target : Loc} {c d : Char} {s : List Char} {f : Loc → Stmt}
    (hTarget : DerivesLoc ts target) (hCut : FoundCut ts cs mid) (hAhead : ahead mid = some c)
    (hColon : c ≠ ':') (hOther : c ≠ d) :
    (location >>= fun target => symbol (d :: s) >>= fun _ => symbol ['.'] >>= fun _ =>
      pure (f target)) ctx cs = .rejected := by
  -- what is ahead of the rest is neither a colon nor the sign that is tried
  have hNoColon : ahead mid ≠ some ':' := by
    rw [hAhead]
    exact fun hEq => hColon (Option.some.inj hEq)
  have hNoSign : ahead mid ≠ some d := by
    rw [hAhead]
    exact fun hEq => hOther (Option.some.inj hEq)
  obtain ⟨target', hRead, -⟩ := hTarget.accepted hCut hNoColon ctx
  rw [bind_of_matched hRead]
  exact bind_of_rejected (symbol_rejects hNoSign)

theorem StmtAccepted.assign {target : Loc} {value : Expr} (hTarget : DerivesLoc ts target)
    (hOpening : ctx.dialect.opening target.root.name)
    (hValue : DerivesExpr ctx.dialect .assignment us value) :
    StmtAccepted ctx (ts ++ .symbol ['='] :: (us ++ [.symbol ['.']])) (.assign target value) := by
  intro cs rest hCut _
  have hTokens : ts ++ .symbol ['='] :: (us ++ [.symbol ['.']]) =
      (ts ++ .symbol ['='] :: us) ++ [.symbol ['.']] := by simp
  rw [hTokens] at hCut
  obtain ⟨cs₂, hPartsCut, hPoint⟩ := hCut.split
  obtain ⟨cs₁, hTargetCut, hSignCut⟩ := hPartsCut.split
  have hAhead : ahead cs₁ = some '=' := hSignCut.ahead
  obtain ⟨target', value', hParts, hTargetShape, hValueShape⟩ := assignmentParts_accepted hTarget
    hValue hValue.accepted hPartsCut (ends_at (hPoint.ahead) (by decide) _)
  have hNoCall : callStmt ctx cs = .rejected :=
    callStmt_rejects hTarget hTargetCut (by rw [hAhead]; decide)
  have hNoIncrement : incrementStmt ctx cs = .rejected :=
    stepped_rejects hTarget hTargetCut hAhead (by decide) (by decide)
  have hNoDecrement : decrementStmt ctx cs = .rejected :=
    stepped_rejects hTarget hTargetCut hAhead (by decide) (by decide)
  -- the target does not start with `return_`, so the alternatives up to `return` reject it
  have hStart : statement ctx cs = (callStmt <|> incrementStmt <|> decrementStmt <|>
      assignStmt) ctx cs := by
    obtain ⟨ns, vs, rfl, hRoot, -, -⟩ := hTarget.root
    obtain ⟨cs₀, hRootCut, -⟩ := hTargetCut.split
    rw [statement_at_name hRoot hRootCut,
      orElse_of_rejected (returnStmt_rejects hRoot hRootCut hOpening)]
  refine ⟨.assign target' value', ?_, ?_⟩
  · rw [hStart, orElse_of_rejected hNoCall, orElse_of_rejected hNoIncrement,
      orElse_of_rejected hNoDecrement, assignStmt, bind_of_matched hParts]
    exact bind_of_matched (symbol_accepted hPoint)
  · rw [Stmt.unplaced_assign, hTargetShape, hValueShape, Stmt.unplaced_assign]

/-- Of a location that starts with `return_`, the rest is read as an expression, but no point
follows it. -/
theorem returnStmt_rejects_step {target : Loc} {c : Char} {more : List Char}
    (hTarget : DerivesLoc ts target) (hCut : FoundCut ts cs mid) (hSign : c = '+' ∨ c = '-')
    (hText : skipTrivia mid = c :: c :: more) : returnStmt ctx cs = .rejected := by
  obtain ⟨us, vs, rfl, hRoot, -, hOther⟩ := hTarget.root
  obtain ⟨cs₁, hRootCut, hFieldsCut⟩ := SignedCut.split hCut
  rw [hRoot.endsOperand false] at hFieldsCut
  rcases hRoot.keyword_cases hRootCut .returnWord ctx with
    hReject | ⟨us', id', cs', hMatch, -, hTail, hTailCut, hFirst, -⟩
  · exact bind_of_rejected hReject
  -- what is left of the location is a location too, and starts with an underscore
  · obtain ⟨target', hTarget', hRoot'⟩ := hOther us' id' hTail
    have hOperand : ctx.dialect.operand target'.root.name := by
      rw [hRoot']
      constructor
      · rintro ⟨s, hWord⟩
        rw [← hWord] at hFirst
        cases hFirst
      · rintro ⟨s, hWord⟩
        rw [← hWord] at hFirst
        cases hFirst
    have hDerives : DerivesExpr ctx.dialect .primary (us' ++ vs) (.loc target') :=
      .loc hTarget' hOperand
    have hNoPoint : ahead mid ≠ some '.' := by
      rw [ahead, hText, List.head?_cons]
      rcases hSign with rfl | rfl
      · decide
      · decide
    -- it is read as a whole expression, which the doubled sign ends
    obtain ⟨e, hRead, -⟩ := expression_accepted (hDerives.lift .assignment)
      (hTailCut.append hFieldsCut) (ends_at_double hSign hText)
    rw [returnStmt, bind_of_matched hMatch, bind_of_matched (optional_of_matched hRead)]
    exact bind_of_rejected (symbol_rejects hNoPoint)

/-- What increments and decrements have in common. -/
theorem step_accepted {target : Loc} {c : Char} {f : Loc → Stmt} (hTarget : DerivesLoc ts target)
    (hSign : c = '+' ∨ c = '-')
    (hCut : FoundCut (ts ++ [.symbol [c, c], .symbol ['.']]) cs rest)
    (ctx : Context) :
    ∃ target' mid, FoundCut ts cs mid ∧ ahead mid = some c ∧
      statement ctx cs = (incrementStmt <|> decrementStmt <|> assignStmt) ctx cs ∧
      (location >>= fun target => symbol [c, c] >>= fun _ => symbol ['.'] >>= fun _ =>
        pure (f target)) ctx cs = .matched (f target') rest ∧
      target'.unplaced = target.unplaced := by
  obtain ⟨cs₁, hTargetCut, hCut⟩ := hCut.split
  obtain ⟨cs₂, hStep, hPoint⟩ := hCut.uncons
  have hAhead : ahead cs₁ = some c := hCut.ahead
  -- the step is the only thing that can follow the target
  have hMarks : ∀ d, d ≠ '+' → d ≠ '-' → ahead cs₁ ≠ some d := by
    rintro d hPlus hMinus hEq
    rw [hAhead] at hEq
    rcases hSign with rfl | rfl
    · exact hPlus (Option.some.inj hEq).symm
    · exact hMinus (Option.some.inj hEq).symm
  obtain ⟨target', hRead, hShape⟩ :=
    hTarget.accepted hTargetCut (hMarks ':' (by decide) (by decide)) ctx
  have hNoReturn : returnStmt ctx cs = .rejected :=
    returnStmt_rejects_step hTarget hTargetCut hSign hStep.single_inv.1
  have hNoCall : callStmt ctx cs = .rejected :=
    callStmt_rejects hTarget hTargetCut (hMarks '(' (by decide) (by decide))
  refine ⟨target', cs₁, hTargetCut, hAhead, ?_, ?_, hShape⟩
  · obtain ⟨ns, vs, rfl, hRoot, -, -⟩ := hTarget.root
    obtain ⟨cs₀, hRootCut, -⟩ := hTargetCut.split
    rw [statement_at_name hRoot hRootCut, orElse_of_rejected hNoReturn,
      orElse_of_rejected hNoCall]
  · rw [bind_of_matched hRead, bind_of_matched (symbol_accepted hStep),
      bind_of_matched (symbol_accepted hPoint)]
    rfl

theorem StmtAccepted.increment {target : Loc} (hTarget : DerivesLoc ts target) :
    StmtAccepted ctx (ts ++ [.symbol ['+', '+'], .symbol ['.']]) (.increment target) := by
  intro cs rest hCut _
  obtain ⟨target', mid, -, -, hStart, hRead, hShape⟩ :=
    step_accepted (f := .increment) hTarget (.inl rfl) hCut ctx
  refine ⟨.increment target', ?_, ?_⟩
  · rw [hStart]
    exact orElse_of_matched hRead
  · rw [Stmt.unplaced_increment, hShape, Stmt.unplaced_increment]

theorem StmtAccepted.decrement {target : Loc} (hTarget : DerivesLoc ts target) :
    StmtAccepted ctx (ts ++ [.symbol ['-', '-'], .symbol ['.']]) (.decrement target) := by
  intro cs rest hCut _
  obtain ⟨target', mid, hTargetCut, hAhead, hStart, hRead, hShape⟩ :=
    step_accepted (f := .decrement) hTarget (.inr rfl) hCut ctx
  have hNoIncrement : incrementStmt ctx cs = .rejected :=
    stepped_rejects hTarget hTargetCut hAhead (by decide) (by decide)
  refine ⟨.decrement target', ?_, ?_⟩
  · rw [hStart, orElse_of_rejected hNoIncrement]
    exact orElse_of_matched hRead
  · rw [Stmt.unplaced_decrement, hShape, Stmt.unplaced_decrement]

/-- Every statement of the grammar is accepted. -/
theorem DerivesStmt.accepted {s : Stmt} (h : DerivesStmt ctx.dialect ts s) :
    StmtAccepted ctx ts s := by
  induction h with
  -- statements inside a block also have to start as statements do, since that is where the
  -- declarations end
  | ifThen hCond hDecls stmts hStmts ih =>
    exact .ifThen hCond hDecls fun s hs => ⟨(hStmts s hs).starts, ih s hs⟩
  | ifElse hCond hDecls stmts hStmts hDecls' stmts' hStmts' ih ih' =>
    exact .ifElse hCond hDecls (fun s hs => ⟨(hStmts s hs).starts, ih s hs⟩) hDecls'
      fun s hs => ⟨(hStmts' s hs).starts, ih' s hs⟩
  | loop hCond hDecls stmts hStmts ih =>
    exact .loop hCond hDecls fun s hs => ⟨(hStmts s hs).starts, ih s hs⟩
  | read hTarget => exact .read hTarget
  | write hValue => exact .write hValue
  | retNone => exact .retNone
  | retSome hValue => exact .retSome hValue
  | call hCallee hOpening args hArgs hList => exact .call hCallee hOpening hArgs hList
  | increment hTarget => exact .increment hTarget
  | decrement hTarget => exact .decrement hTarget
  | assign hTarget hOpening hValue => exact .assign hTarget hOpening hValue

end NameResolution.Grammar
