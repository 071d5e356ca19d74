import NameResolution.Proofs.Grammar.Composition

/-!
# Dialects — a sentence of one that is a sentence of another

Two dialects have the same rules and differ in what they ask of lists, names and numbers. Where the
parts of a token list meet what the other dialect asks for, a derivation in the one is a derivation
of the same tree in the other.

* `Transfers` — a property of token lists that leads from one dialect to another.
* `DerivesProgram.transfer` — it does so for whole programs.
-/

namespace NameResolution.Grammar

/-- The property is one of all parts of a token list, and gives what `d'` asks for beyond `d`. -/
structure Transfers (d d' : Dialect) (H : List Token → Prop) : Prop where
  part : ∀ {ts us}, H ts → us <:+: ts → H us
  arguments : ∀ {ts rows}, H (enclosed '(' ')' ts) → d.Listed rows ts → d'.Listed rows ts
  formals : ∀ {ts rows}, H (enclosed '[' ']' ts) → d.Listed rows ts → d'.Listed rows ts
  operand : ∀ {ts id}, DerivesIdent ts id → H ts → d.operand id.name → d'.operand id.name
  opening : ∀ {ts id}, DerivesIdent ts id → H ts → d.opening id.name → d'.opening id.name
  digits : ∀ {pos ds}, H [.number pos ds] → d.digits ds → d'.digits ds

variable {d d' : Dialect} {ts us vs : List Token}

/-- A location starts with its root. -/
theorem DerivesLoc.root_part {loc : Loc} (h : DerivesLoc ts loc) :
    ∃ us, us <:+: ts ∧ DerivesIdent us loc.root := by
  induction h with
  | @var ts id hId => exact ⟨ts, List.infix_refl ts, hId⟩
  | field _ _ ih =>
    obtain ⟨us, hPart, hRoot⟩ := ih
    exact ⟨us, List.infix_append_of_infix_left hPart, hRoot⟩

/-- A row of a body stands somewhere in the tokens of the body. -/
theorem infix_body {α : Type} {opening closing : Char} {row : List Token × α}
    {rows : List (List Token × α)} (hRow : row ∈ rows) :
    row.1 <:+: enclosed opening closing (us ++ rows.flatMap (·.1)) := by
  have hAmong : row.1 <:+: rows.flatMap (·.1) := infix_flatMap hRow (List.infix_refl row.1)
  exact infix_enclosed (List.infix_append_of_infix_right hAmong)

section Transfer

variable {H : List Token → Prop} (hT : Transfers d d' H)
include hT

namespace Transfers

/-- The condition on tokens passes to the first part of them. -/
theorem left (h : H (ts ++ us)) : H ts :=
  hT.part h (List.infix_append_of_infix_left (List.infix_refl ts))

/-- The condition on tokens passes to the last part of them. -/
theorem right (h : H (ts ++ us)) : H us :=
  hT.part h (List.infix_append_of_infix_right (List.infix_refl us))

/-- The condition on tokens passes to what stands behind the first of them. -/
theorem tail {t : Token} (h : H (t :: ts)) : H ts :=
  hT.part h (List.infix_cons (List.infix_refl ts))

/-- The condition on tokens passes to what stands behind a token in the middle. -/
theorem behind {t : Token} (h : H (ts ++ t :: us)) : H us :=
  hT.tail (hT.right h)

/-- The condition on tokens passes to what stands between two brackets. -/
theorem inside {opening closing : Char} (h : H (enclosed opening closing ts)) : H ts :=
  hT.part h (infix_enclosed (List.infix_refl ts))

end Transfers

/-! ## Expressions and statements -/

/-- An expression of one dialect is an expression of the other one, if the condition holds of its
tokens. -/
theorem DerivesExpr.transfer {level : Level} {e : Expr} (h : DerivesExpr d level ts e)
    (hH : H ts) : DerivesExpr d' level ts e := by
  induction h with
  | tighter hNext _ ih => exact .tighter hNext (ih hH)
  | assign hTarget _ ih => exact .assign hTarget (ih (hT.behind hH))
  | operation hOp hNext _ _ ihLeft ihRight =>
    exact .operation hOp hNext (ihLeft (hT.left hH)) (ihRight (hT.behind hH))
  | comparison hOp _ _ ihLeft ihRight =>
    exact .comparison hOp (ihLeft (hT.left hH)) (ihRight (hT.behind hH))
  | sign hOp _ ih => exact .sign hOp (ih (hT.tail hH))
  | trueLit pos => exact .trueLit pos
  | falseLit pos => exact .falseLit pos
  | intLit pos hForm hDigits => exact .intLit pos hForm (hT.digits hH hDigits)
  | strLit pos hForm => exact .strLit pos hForm
  | @call ts us callee hCallee hOperand args _ hList ih =>
    have hItems : H us := hT.inside (hT.right hH)
    refine .call hCallee (hT.operand hCallee (hT.left hH) hOperand) args ?_
      (hT.arguments (hT.right hH) hList)
    -- each argument is a part of the list
    intro arg hArg
    exact ih arg hArg (hT.part hItems (hList.isInfix (List.mem_map_of_mem hArg)))
  | parenthesized _ ih => exact .parenthesized (ih (hT.inside hH))
  | loc hLoc hOperand =>
    obtain ⟨us, hPart, hRoot⟩ := hLoc.root_part
    exact .loc hLoc (hT.operand hRoot (hT.part hH hPart) hOperand)

/-- A statement of one dialect is a statement of the other one, if the condition holds of its
tokens. -/
theorem DerivesStmt.transfer {s : Stmt} (h : DerivesStmt d ts s) (hH : H ts) :
    DerivesStmt d' ts s := by
  induction h with
  | ifThen hCond hDecls stmts _ ih =>
    -- the condition is carried down to each part by the place that the part has in the tokens
    refine .ifThen (hCond.transfer hT (hT.inside (hT.tail (hT.left hH)))) hDecls stmts ?_
    exact fun s hs => ih s hs (hT.part (hT.right hH) (infix_body hs))
  | ifElse hCond hDecls stmts _ hDecls' stmts' _ ih ih' =>
    have hThen := hT.left hH
    refine .ifElse (hCond.transfer hT (hT.inside (hT.tail (hT.left hThen)))) hDecls stmts ?_
      hDecls' stmts' ?_
    · exact fun s hs => ih s hs (hT.part (hT.right hThen) (infix_body hs))
    · exact fun s hs => ih' s hs (hT.part (hT.behind hH) (infix_body hs))
  | loop hCond hDecls stmts _ ih =>
    refine .loop (hCond.transfer hT (hT.inside (hT.tail (hT.left hH)))) hDecls stmts ?_
    exact fun s hs => ih s hs (hT.part (hT.right hH) (infix_body hs))
  | read hTarget => exact .read hTarget
  | write hValue => exact .write (hValue.transfer hT (hT.left (hT.tail (hT.tail hH))))
  | retNone => exact .retNone
  | retSome hValue => exact .retSome (hValue.transfer hT (hT.left (hT.tail hH)))
  | @call ts us callee hCallee hOpening args hArgs hList =>
    have hCall := hT.left hH
    -- only calls and assignments ask the dialect anything: how the statement may start, and which
    -- lists of arguments there are
    have hItems : H us := hT.inside (hT.right hCall)
    refine .call hCallee (hT.opening hCallee (hT.left hCall) hOpening) args ?_
      (hT.arguments (hT.right hCall) hList)
    intro arg hArg
    refine (hArgs arg hArg).transfer hT (hT.part hItems ?_)
    exact hList.isInfix (List.mem_map_of_mem hArg)
  | increment hTarget => exact .increment hTarget
  | decrement hTarget => exact .decrement hTarget
  | assign hTarget hOpening hValue =>
    -- the root of the target is the first name of the statement, so the opening is about it
    obtain ⟨us, hPart, hRoot⟩ := hTarget.root_part
    exact .assign hTarget (hT.opening hRoot (hT.part (hT.left hH) hPart) hOpening)
      (hValue.transfer hT (hT.left (hT.behind hH)))

/-! ## Programs -/

/-- A declaration of one dialect is a declaration of the other one, if the condition holds of its
tokens. -/
theorem DerivesDecl.transfer {decl : Decl} (h : DerivesDecl d ts decl) (hH : H ts) :
    DerivesDecl d' ts decl := by
  cases h with
  | struct hId hFields hSome => exact .struct hId hFields hSome
  | func hResult hId formals hFormals hList hDecls hStmts =>
    obtain ⟨rows, hRows, rfl, rfl⟩ := hStmts
    refine .func hResult hId formals hFormals (hT.formals (hT.right (hT.left hH)) hList) hDecls
      ⟨rows, ?_, rfl, rfl⟩
    exact fun s hs => (hRows s hs).transfer hT (hT.part (hT.right hH) (infix_body hs))
  | var hDecl => exact .var hDecl

/-- A sentence of one dialect that is a sentence of another one, with the same tree. -/
theorem DerivesProgram.transfer {p : Program} (h : DerivesProgram d ts p) (hH : H ts) :
    DerivesProgram d' ts p := by
  obtain ⟨rows, hRows, rfl, hDecls⟩ := h
  refine ⟨rows, ?_, rfl, hDecls⟩
  intro row hRow
  exact (hRows row hRow).transfer hT (hT.part hH (infix_flatMap hRow (List.infix_refl row.1)))

end Transfer

end NameResolution.Grammar
