import NameResolution.Proofs.Grammar.PrintedExpression

/-!
# Printed programs — the lines of a printed program spell its tokens

A line feed ends each line, so every line can stand in front of any text. The indentation of a line
and an empty line are trivia.

* `linesText` — lines as one text.
* `DerivesStmt.spells`, `DerivesDecl.spells` — the lines of statements and declarations.
* `DerivesProgram.spells` — the text of a program.
-/

namespace NameResolution

/-- The lines with a line feed behind each. -/
def linesText (lines : List String) : List Char :=
  lines.flatMap fun line => line.toList ++ ['\n']

theorem Stmt.linesAll_eq_flatMap (annotate : Bool) (indent : Int) (ss : List Stmt) :
    Stmt.linesAll annotate indent ss = ss.flatMap (Stmt.lines annotate indent) := by
  induction ss with
  | nil => rw [Stmt.linesAll, List.flatMap_nil]
  | cons s ss ih => rw [Stmt.linesAll, ih, List.flatMap_cons]

/-- Lines that are put together end with a line feed, if there are any. -/
theorem linesText_intercalate {lines : List String} (hSome : lines ≠ []) :
    ("\n".intercalate lines ++ "\n").toList = linesText lines := by
  induction lines with
  | nil => exact absurd rfl hSome
  | cons line lines ih =>
    cases lines with
    | nil =>
      rw [String.intercalate_singleton, String.toList_append, linesText, List.flatMap_singleton]
      rfl
    | cons next lines =>
      -- the other lines end with a line feed by induction
      have hOthers := ih (List.cons_ne_nil next lines)
      rw [String.toList_append] at hOthers
      rw [String.intercalate_cons_cons, String.toList_append, String.toList_append,
        String.toList_append, List.append_assoc, hOthers]
      rfl

namespace Grammar

variable {ts us : List Token} {s s' : List Char} {ls ls' : List String}

/-! ## Lines -/

/-- The lines spell the tokens, whatever follows. -/
abbrev SpellLines (ls : List String) (ts : List Token) : Prop :=
  Spells Anything (linesText ls) ts

theorem SpellLines.append (h : SpellLines ls ts) (h' : SpellLines ls' us) :
    SpellLines (ls ++ ls') (ts ++ us) := by
  rw [SpellLines, linesText, List.flatMap_append]
  exact h.before h'

/-- Lines that are spelled piece by piece are spelled as a whole. -/
theorem SpellLines.flatMap {α : Type} {lines : α → List String} {tokens : α → List Token}
    {xs : List α} (h : ∀ x ∈ xs, SpellLines (lines x) (tokens x)) :
    SpellLines (xs.flatMap lines) (xs.flatMap tokens) := by
  induction xs with
  | nil => exact .nothing
  | cons x xs ih =>
    obtain ⟨hFirst, hOthers⟩ := List.forall_mem_cons.mp h
    exact hFirst.append (ih hOthers)

/-- Spaces in front spell nothing. -/
theorem spells_spaces (n : Nat) {follow : List Char → Prop} (h : Spells follow s ts) :
    Spells follow (List.replicate n ' ' ++ s) ts := by
  induction n with
  | zero => exact h
  | succ n ih => exact ih.blank (by decide)

/-- A line whose text can stand in front of anything, after some indentation. -/
theorem spellLines_line {line : String} (indent : Int) (h : Spells Anything line.toList ts) :
    SpellLines [indented indent line] ts := by
  have hText : linesText [indented indent line] =
      List.replicate indent.toNat ' ' ++ (line.toList ++ ['\n']) := by
    rw [linesText, List.flatMap_singleton, indented, String.toList_append, String.toList_ofList,
      List.append_assoc]
  have hEnd : Spells Anything ['\n'] [] := Spells.nothing.blank (by decide)
  have hLine : Spells Anything (line.toList ++ ['\n']) (ts ++ []) := h.before hEnd
  rw [List.append_nil] at hLine
  rw [SpellLines, hText]
  exact spells_spaces _ hLine

/-- An empty line. -/
theorem spellLines_empty : SpellLines [""] [] := Spells.nothing.blank (by decide)

/-! ## Variables -/

theorem DerivesType.spells {type : TypeRef} (h : DerivesType ts type) :
    Spells Apart type.print.toList type.tokens := by
  cases h with
  | boolean => exact spells_keyword .boolean
  | integer => exact spells_keyword .integer
  | void => exact spells_keyword .void
  | struct hId =>
    cases hId with
    | @name pos word hName =>
      -- the names of the basic types are keywords, so a struct has none of them
      have hBasic : basicTypes.contains word = false := by
        rw [← Bool.not_eq_true, List.contains_iff_mem]
        intro hMem
        have hKeywords : ∀ w ∈ basicTypes, isName w.toList = false := by decide
        rw [hKeywords word hMem] at hName
        cases hName
      have hText : (TypeRef.print (.struct ⟨pos, word, none⟩)).toList =
          Keyword.struct.chars ++ ' ' :: word.toList := by
        rw [TypeRef.print, TypeRef.name, hBasic, if_neg Bool.false_ne_true, String.toList_append]
        rfl
      rw [hText]
      exact (spells_name pos hName).behind_keyword .struct

/-- A type and a name, as in all declarations. -/
theorem spells_typed {type : TypeRef} {id : Ident} (hType : DerivesType ts type)
    (hId : DerivesIdent us id) :
    Spells Apart (type.print ++ " " ++ id.name).toList (type.tokens ++ [id.token]) := by
  rw [String.toList_append, String.toList_append, List.append_assoc]
  exact hType.spells.parted (hId.spells.blank (by decide)) (by decide)

theorem DerivesVarDecl.spells {d : VarDecl} (h : DerivesVarDecl ts d) (indent : Int) :
    SpellLines (d.lines indent) d.tokens := by
  cases h with
  | intro hType hId =>
    refine spellLines_line indent ?_
    rw [String.toList_append]
    exact (spells_typed hType hId).pointed

theorem varDecls_spell {decls : List VarDecl} (h : Rows DerivesVarDecl ts decls) (indent : Int) :
    SpellLines (decls.flatMap (VarDecl.lines indent)) (decls.flatMap VarDecl.tokens) := by
  obtain ⟨rows, hRows, -, rfl⟩ := h
  refine SpellLines.flatMap ?_
  rintro d hd
  obtain ⟨row, hRow, rfl⟩ := List.mem_map.mp hd
  exact (hRows row hRow).spells indent

/-! ## Statements -/

/-- A body between the lines with its brackets. -/
theorem SpellLines.body {opening closing : Char} {first last : String} {us : List Token}
    (hFirst : SpellLines [first] (us ++ [.symbol [opening]])) (hBody : SpellLines ls ts)
    (hLast : SpellLines [last] [.symbol [closing]]) :
    SpellLines ([first] ++ ls ++ [last]) (us ++ enclosed opening closing ts) := by
  have hTokens : us ++ enclosed opening closing ts =
      us ++ [.symbol [opening]] ++ ts ++ [.symbol [closing]] := by
    simp [enclosed]
  rw [hTokens]
  exact (hFirst.append hBody).append hLast

/-- The line that opens a body behind a condition. -/
theorem spells_condition {cond : Expr} (k : Keyword) (opening : String)
    (hOpening : opening.toList = k.chars ++ [' ', '('])
    (hCond : DerivesExpr .ordered .assignment ts cond) (indent : Int) :
    SpellLines [indented indent (opening ++ cond.print false ++ ") \x7b")]
      (.keyword k :: enclosed '(' ')' cond.tokens ++ [.symbol ['\x7b']]) := by
  have hText : (opening ++ cond.print false ++ ") \x7b").toList =
      k.chars ++ ' ' :: ('(' :: ((cond.print false).toList ++ [')']) ++ [' ', '\x7b']) := by
    simp [hOpening]
  have hBrace : Spells Anything ['\x7b'] [.symbol ['\x7b']] := .symbol (by decide)
  refine spellLines_line indent ?_
  rw [hText]
  exact (hCond.spells.parenthesized.before (hBrace.blank (by decide))).behind_keyword k

theorem spells_brace (indent : Int) : SpellLines [indented indent "\x7d"] [.symbol ['\x7d']] :=
  spellLines_line indent (.symbol (by decide))

/-- The declarations and statements of a body. -/
theorem body_spells {decls : List VarDecl} {stmts : List (List Token × Stmt)} (indent : Int)
    (hDecls : Rows DerivesVarDecl us decls)
    (hStmts : ∀ s ∈ stmts, SpellLines (s.2.lines false indent) s.2.tokens) :
    SpellLines
      (decls.flatMap (VarDecl.lines indent) ++ Stmt.linesAll false indent (stmts.map (·.2)))
      (decls.flatMap VarDecl.tokens ++ Stmt.tokensAll (stmts.map (·.2))) := by
  rw [Stmt.linesAll_eq_flatMap, Stmt.tokensAll_eq_flatMap]
  exact (varDecls_spell hDecls indent).append (.flatMap (List.forall_mem_map.mpr hStmts))

/-- A condition with the body that it guards. -/
theorem spells_guarded {cond : Expr} {decls : List VarDecl} {stmts : List (List Token × Stmt)}
    (k : Keyword) (opening : String) (hOpening : opening.toList = k.chars ++ [' ', '('])
    (hCond : DerivesExpr .ordered .assignment ts cond) (hDecls : Rows DerivesVarDecl us decls)
    (hStmts : ∀ s ∈ stmts, ∀ indent, SpellLines (s.2.lines false indent) s.2.tokens)
    (indent : Int) :
    SpellLines ([indented indent (opening ++ cond.print false ++ ") \x7b")] ++
        (decls.flatMap (VarDecl.lines (indent + indentStep)) ++
          Stmt.linesAll false (indent + indentStep) (stmts.map (·.2))) ++
        [indented indent "\x7d"])
      (.keyword k :: enclosed '(' ')' cond.tokens ++
        enclosed '\x7b' '\x7d'
          (decls.flatMap VarDecl.tokens ++ Stmt.tokensAll (stmts.map (·.2)))) := by
  -- the line of the condition, the lines of the body, and the closing one
  have hFirst := spells_condition k opening hOpening hCond indent
  have hBody := body_spells (indent + indentStep) hDecls fun s hs => hStmts s hs _
  exact hFirst.body hBody (spells_brace indent)

/-- The line of a statement that one keyword opens. -/
theorem spells_worded {line : String} (k : Keyword) (hText : line.toList = k.chars ++ ' ' :: s)
    (h : Spells Anything s ts) (indent : Int) :
    SpellLines [indented indent line] (.keyword k :: ts) := by
  refine spellLines_line indent ?_
  rw [hText]
  exact h.behind_keyword k

/-- The line of a statement that counts a location up or down. -/
theorem spells_step {target : Loc} {sign : String} {op : List Char} (hTarget : DerivesLoc ts target)
    (hSign : sign.toList = op ++ ['.']) (hOp : op = ['+', '+'] ∨ op = ['-', '-']) (indent : Int) :
    SpellLines [indented indent (target.print false ++ sign)]
      (target.tokens ++ [.symbol op, .symbol ['.']]) := by
  refine spellLines_line indent ?_
  rw [String.toList_append, hSign]
  rcases hOp with rfl | rfl
  · have hSteps : Spells Anything ['+', '+'] [.symbol ['+', '+']] := .symbol (by decide)
    exact hTarget.spells.parted (hSteps.before spells_point) (by decide)
  · have hSteps : Spells Anything ['-', '-'] [.symbol ['-', '-']] := .symbol (by decide)
    exact hTarget.spells.parted (hSteps.before spells_point) (by decide)

/-- Every statement that is derived from tokens is spelled by the lines that are printed for it. -/
theorem DerivesStmt.spells {s : Stmt} (h : DerivesStmt .ordered ts s) (indent : Int) :
    SpellLines (s.lines false indent) s.tokens := by
  induction h generalizing indent with
  | ifThen hCond hDecls stmts _ ih =>
    rw [Stmt.lines, Stmt.tokens, List.append_assoc [_]]
    exact spells_guarded .ifWord "if (" rfl hCond hDecls ih indent
  | ifElse hCond hDecls stmts _ hDecls' stmts' _ ih ih' =>
    have hThen := spells_guarded .ifWord "if (" rfl hCond hDecls ih indent
    have hBrace : Spells Anything ['\x7b'] [.symbol ['\x7b']] := .symbol (by decide)
    -- a line of its own for the `else`, behind the first body
    have hElse : SpellLines [indented indent "else \x7b"]
        ([.keyword .elseWord] ++ [.symbol ['\x7b']]) :=
      spells_worded .elseWord rfl hBrace indent
    have hBody := body_spells (indent + indentStep) hDecls' fun s hs => ih' s hs _
    have hAll := hThen.append (hElse.body hBody (spells_brace indent))
    rw [Stmt.lines, Stmt.tokens]
    simpa only [List.append_assoc, List.cons_append, List.nil_append] using hAll
  | loop hCond hDecls stmts _ ih =>
    rw [Stmt.lines, Stmt.tokens, List.append_assoc [_]]
    exact spells_guarded .whileWord "while (" rfl hCond hDecls ih indent
  | @read _ target hTarget =>
    have hText : ("input -> " ++ target.print false ++ ".").toList = Keyword.input.chars ++
        ' ' :: (['-', '>'] ++ ' ' :: ((target.print false).toList ++ ['.'])) := by
      simp [Keyword.chars]
    have hArrow : Spells Anything ['-', '>'] [.symbol ['-', '>']] := .symbol (by decide)
    rw [Stmt.lines, Stmt.tokens]
    exact spells_worded .input hText
      (hArrow.before (hTarget.spells.pointed.blank (by decide))) indent
  | @write _ value hValue =>
    have hText : ("disp <- (" ++ value.print false ++ ").").toList = Keyword.disp.chars ++
        ' ' :: (['<', '-'] ++ ' ' :: ('(' :: ((value.print false).toList ++ [')']) ++ ['.'])) := by
      simp [Keyword.chars]
    have hArrow : Spells Anything ['<', '-'] [.symbol ['<', '-']] := .symbol (by decide)
    have hOperand := hValue.spells.parenthesized.before spells_point
    rw [Stmt.lines, Stmt.tokens]
    exact spells_worded .disp hText (hArrow.before (hOperand.blank (by decide))) indent
  | retNone =>
    rw [Stmt.lines, Stmt.tokens]
    exact spellLines_line indent (spells_keyword .returnWord).pointed
  | @retSome _ value hValue =>
    have hText : ("return " ++ value.print false ++ ".").toList = Keyword.returnWord.chars ++
        ' ' :: ((value.print false).toList ++ ['.']) := by
      simp [Keyword.chars]
    rw [Stmt.lines, Stmt.tokens]
    exact spells_worded .returnWord hText hValue.spells.pointed indent
  | @call _ _ callee hCallee _ args hArgs _ =>
    have hCall := call_spells hCallee fun arg hArg => (hArgs arg hArg).spells
    rw [Expr.tokens] at hCall
    rw [Stmt.lines, Stmt.tokens]
    refine spellLines_line indent ?_
    rw [String.toList_append]
    exact hCall.before spells_point
  | increment hTarget =>
    rw [Stmt.lines, Stmt.tokens]
    exact spells_step hTarget rfl (.inl rfl) indent
  | decrement hTarget =>
    rw [Stmt.lines, Stmt.tokens]
    exact spells_step hTarget rfl (.inr rfl) indent
  | @assign _ _ target value hTarget _ hValue =>
    have hText : (target.print false ++ " = " ++ value.print false ++ ".").toList =
        (target.print false).toList ++ ' ' :: (['='] ++ ' ' ::
          ((value.print false).toList ++ ['.'])) := by
      simp
    have hKnown : ['='] ∈ Token.punctuation := by decide
    rw [Stmt.lines, Stmt.tokens]
    refine spellLines_line indent ?_
    rw [hText]
    exact hTarget.spells.operation hKnown hValue.spells.pointed

/-! ## Declarations -/

theorem spells_bracket (indent : Int) : SpellLines [indented indent "]"] [.symbol [']']] :=
  spellLines_line indent (.symbol (by decide))

theorem DerivesFormal.spells {f : Formal} (h : DerivesFormal ts f) :
    Spells Apart f.print.toList f.tokens := by
  cases h with
  | intro hType hId => exact spells_typed hType hId

/-- Every declaration that is derived from tokens is spelled by the lines that are printed for
it. -/
theorem DerivesDecl.spells {d : Decl} (h : DerivesDecl .ordered ts d) (indent : Int) :
    SpellLines (d.lines false indent) d.tokens := by
  have hOpen : Spells Anything ['['] [.symbol ['[']] := .symbol (by decide)
  cases h with
  | @struct _ _ id fields hId hFields hSome =>
    have hText : ("struct " ++ id.name ++ " [").toList =
        Keyword.struct.chars ++ ' ' :: (id.name.toList ++ [' ', '[']) := by
      simp [Keyword.chars]
    -- the line that opens the struct, its fields, and the empty line behind it
    have hFirst : SpellLines [indented indent ("struct " ++ id.name ++ " [")]
        (.keyword .struct :: [id.token] ++ [.symbol ['[']]) := by
      refine spellLines_line indent ?_
      rw [hText]
      exact (hId.spells.parted (hOpen.blank (by decide)) (by decide)).behind_keyword .struct
    have hBody := varDecls_spell hFields (indent + indentStep)
    have hAll := (hFirst.body hBody (spells_bracket indent)).append spellLines_empty
    rw [List.append_nil, List.append_assoc _ [_] [_]] at hAll
    rw [Decl.lines, StructDecl.lines, Decl.tokens, List.flatMap_map, List.flatMap_map]
    exact hAll
  | @func _ _ _ _ _ result id decls stmts hResult hId formals hFormals _ hDecls hStmts =>
    obtain ⟨rows, hRows, -, rfl⟩ := hStmts
    have hText : (result.print ++ " " ++ id.name ++ "[" ++
        ", ".intercalate ((formals.map (·.2)).map Formal.print) ++ "] [").toList =
        (result.print ++ " " ++ id.name).toList ++ '[' ::
          ((", ".intercalate ((formals.map (·.2)).map Formal.print)).toList ++ [']'] ++
            [' ', '[']) := by
      simp
    -- the head of the function in one line, then the body
    have hClose : Spells Anything [']'] [.symbol [']']] := .symbol (by decide)
    have hFormalsSpell : ∀ f ∈ formals.map (·.2), Spells Apart f.print.toList f.tokens :=
      List.forall_mem_map.mpr fun f hf => (hFormals f hf).spells
    have hList := (spells_list hFormalsSpell).bracketed (fun _ => apart_cons (by decide)) hOpen
      hClose
    have hFirst : SpellLines [indented indent (result.print ++ " " ++ id.name ++ "[" ++
        ", ".intercalate ((formals.map (·.2)).map Formal.print) ++ "] [")]
        (result.tokens ++ [id.token] ++
          enclosed '[' ']' (betweenCommas ((formals.map (·.2)).map Formal.tokens)) ++
          [.symbol ['[']]) := by
      refine spellLines_line indent ?_
      rw [hText, List.append_assoc (_ ++ _)]
      exact (spells_typed hResult hId).parted (hList.before (hOpen.blank (by decide))) (by decide)
    have hBody := body_spells (indent + indentStep) hDecls fun s hs => (hRows s hs).spells _
    have hAll := (hFirst.body hBody (spells_bracket indent)).append spellLines_empty
    rw [List.append_nil, List.append_assoc _ [_] [_]] at hAll
    exact hAll
  | var hDecl => exact hDecl.spells indent

/-- The text of a program spells its printed tokens. -/
theorem DerivesProgram.spells {p : Program} (h : DerivesProgram .ordered ts p) :
    Spells Anything (p.print false).toList p.tokens := by
  obtain ⟨rows, hRows, -, hDecls⟩ := h
  have hLines : SpellLines (p.lines false 0) p.tokens := by
    refine SpellLines.flatMap ?_
    rw [hDecls]
    exact List.forall_mem_map.mpr fun row hRow => (hRows row hRow).spells 0
  by_cases hSome : p.lines false 0 = []
  · -- an empty program is printed as a line feed
    rw [hSome] at hLines
    rw [Program.print, hSome]
    exact hLines.blank (by decide)
  · rw [Program.print, linesText_intercalate hSome]
    exact hLines

end Grammar

end NameResolution
