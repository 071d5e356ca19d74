import NameResolution.Proofs.Grammar.Relayout

/-!
# Shortened numbers — sentences in which no number is too long

How many digits a number has does not matter to the rules of the grammar. So a sentence whose
numbers may be of any length stays one when a number that is too long for the parser is cut down to
its first digit, and a text can be cut into the shorter tokens with little change.

* `Dialect.unlimited` — the sentences of the parser, but for the length of numbers.
* `Token.shorten`, `DerivesProgram.shorten` — a sentence with shorter numbers is one of the parser.
* `FoundBehind.shorten` — a text of the shorter tokens.
-/

namespace NameResolution.Grammar

/-- The grammar as it is read from a text by ordered choice, with numbers of any length. -/
def Dialect.unlimited : Dialect :=
  { Dialect.ordered with digits := fun _ => True }

/-- The digits, or the first of them alone if they are too many. -/
def shortDigits (digits : List Char) : List Char :=
  if maxDigits < digits.length then digits.take 1 else digits

/-- The token with as many digits as can be read, if it is a number. -/
def Token.shorten : Token → Token
  | .number pos digits => .number pos (shortDigits digits)
  | .keyword k => .keyword k
  | .symbol s => .symbol s
  | .truth pos value => .truth pos value
  | .name pos word => .name pos word
  | .string pos literal => .string pos literal

variable {α : Type} {ts us : List Token} {t : Token}

/-! ## Tokens -/

/-- Shortened digits are not too many. -/
theorem shortDigits_length (digits : List Char) : (shortDigits digits).length ≤ maxDigits := by
  rw [shortDigits]
  split
  · rw [List.length_take]
    exact Nat.le_trans (Nat.min_le_left 1 _) (by decide)
  · omega

/-- Shortened digits are the first ones. -/
theorem shortDigits_isPrefix (digits : List Char) : shortDigits digits <+: digits := by
  rw [shortDigits]
  split
  · exact List.take_prefix 1 digits
  · exact List.prefix_refl digits

/-- The first digit stays. -/
theorem shortDigits_head? (digits : List Char) : (shortDigits digits).head? = digits.head? := by
  rw [shortDigits]
  split
  · cases digits <;> rfl
  · rfl

namespace Token

/-- A shortened token has its form. -/
theorem WellFormed.shorten (h : t.WellFormed) : t.shorten.WellFormed := by
  cases t with
  | number pos digits =>
    obtain ⟨hSome, hDigits⟩ := h
    have hHead := shortDigits_head? digits
    refine ⟨?_, fun d hd => hDigits d ((shortDigits_isPrefix digits).subset hd)⟩
    intro hNone
    rw [hNone, List.head?_nil, eq_comm, List.head?_eq_none_iff] at hHead
    exact hSome hHead
  | keyword | symbol | truth | name | string => exact h

/-- The first character of a token is left. -/
theorem shorten_head? (t : Token) : t.shorten.chars.head? = t.chars.head? := by
  cases t with
  | number pos digits => exact shortDigits_head? digits
  | keyword | symbol | truth | name | string => rfl

/-- A number that is short enough stays as it is. -/
theorem shorten_of_length {pos : Position} {digits : List Char} (h : digits.length ≤ maxDigits) :
    (number pos digits).shorten = number pos digits := by
  rw [shorten, shortDigits, if_neg (Nat.not_lt.mpr h)]

/-- Shortening does not change whether an operand may end with the token. -/
theorem shorten_endsOperand (t : Token) : t.shorten.endsOperand = t.endsOperand := by
  cases t <;> rfl

/-- A shortened token ends where the token ends. -/
theorem Ended.shorten {rest : List Char} (h : t.Ended rest) : t.shorten.Ended rest := by
  cases t <;> exact h

/-- Signs are not shortened. -/
theorem Doubled.of_shorten {rest : List Char} (h : t.shorten.Doubled rest) : t.Doubled rest := by
  cases t <;> exact h

end Token

/-! ## Sentences -/

/-- Rows of shorter tokens, each with some value again. -/
theorem rows_shorten {derives : List Token → α → Prop} {rows : List (List Token × α)}
    (h : ∀ row ∈ rows, ∃ x, derives (row.1.map Token.shorten) x) :
    ∃ rows' : List (List Token × α), (∀ row ∈ rows', derives row.1 row.2) ∧
      rows'.map (·.1) = (rows.map (·.1)).map (List.map Token.shorten) ∧
      rows'.flatMap (·.1) = (rows.flatMap (·.1)).map Token.shorten := by
  induction rows with
  | nil => exact ⟨[], List.forall_mem_nil _, rfl, rfl⟩
  | cons row rows ih =>
    obtain ⟨⟨x, hFirst⟩, hOthers⟩ := List.forall_mem_cons.mp h
    obtain ⟨rows', hRows, hTokens, hFlat⟩ := ih hOthers
    -- the tokens of each row are shortened, and its tree is whatever they derive then
    refine ⟨(row.1.map Token.shorten, x) :: rows', List.forall_mem_cons.mpr ⟨hFirst, hRows⟩, ?_, ?_⟩
    · rw [List.map_cons, hTokens, List.map_cons, List.map_cons]
    · rw [List.flatMap_cons, hFlat, List.flatMap_cons, List.map_append]

theorem Listed.shorten {rows : List (List Token)} (h : Dialect.unlimited.Listed rows ts) :
    Dialect.ordered.Listed (rows.map (List.map Token.shorten)) (ts.map Token.shorten) :=
  h.map Token.shorten rfl

/-- Brackets are not shortened. -/
theorem shorten_enclosed (opening closing : Char) (ts : List Token) :
    (enclosed opening closing ts).map Token.shorten =
      enclosed opening closing (ts.map Token.shorten) := by
  rw [enclosed, List.map_cons, List.map_append]
  rfl

/-! ### Names, types and variables have no numbers -/

theorem DerivesIdent.shorten {id : Ident} (h : DerivesIdent ts id) : ts.map Token.shorten = ts := by
  cases h
  rfl

theorem DerivesLoc.shorten {loc : Loc} (h : DerivesLoc ts loc) : ts.map Token.shorten = ts := by
  induction h with
  | var hId => exact hId.shorten
  | field _ hId ih =>
    rw [List.map_append, List.map_cons, ih, hId.shorten]
    rfl

theorem DerivesType.shorten {type : TypeRef} (h : DerivesType ts type) :
    ts.map Token.shorten = ts := by
  cases h with
  | boolean | integer | void => rfl
  | struct hId =>
    rw [List.map_cons, hId.shorten]
    rfl

theorem DerivesVarDecl.shorten {decl : VarDecl} (h : DerivesVarDecl ts decl) :
    ts.map Token.shorten = ts := by
  cases h with
  | intro hType hId =>
    rw [List.map_append, List.map_append, hType.shorten, hId.shorten]
    rfl

theorem DerivesFormal.shorten {f : Formal} (h : DerivesFormal ts f) :
    ts.map Token.shorten = ts := by
  cases h with
  | intro hType hId => rw [List.map_append, hType.shorten, hId.shorten]

theorem varDecls_shorten {decls : List VarDecl} (h : Rows DerivesVarDecl ts decls) :
    ts.map Token.shorten = ts := by
  obtain ⟨rows, hRows, rfl, -⟩ := h
  rw [List.map_flatMap]
  exact List.flatMap_congr fun row hRow => (hRows row hRow).shorten

/-! ### Expressions and statements -/

/-- The shortened tokens of an expression are an expression, with other values in its tree. -/
theorem DerivesExpr.shorten {level : Level} {e : Expr} (h : DerivesExpr .unlimited level ts e) :
    ∃ e', DerivesExpr .ordered level (ts.map Token.shorten) e' := by
  induction h with
  | tighter hNext _ ih =>
    obtain ⟨e', hInner⟩ := ih
    exact ⟨e', .tighter hNext hInner⟩
  | assign hTarget _ ih =>
    obtain ⟨value', hValue⟩ := ih
    rw [List.map_append, List.map_cons, hTarget.shorten]
    exact ⟨_, .assign hTarget hValue⟩
  | operation hOp hNext _ _ ihLeft ihRight =>
    obtain ⟨left', hLeft⟩ := ihLeft
    obtain ⟨right', hRight⟩ := ihRight
    rw [List.map_append, List.map_cons]
    exact ⟨_, .operation hOp hNext hLeft hRight⟩
  | comparison hOp _ _ ihLeft ihRight =>
    obtain ⟨left', hLeft⟩ := ihLeft
    obtain ⟨right', hRight⟩ := ihRight
    rw [List.map_append, List.map_cons]
    exact ⟨_, .comparison hOp hLeft hRight⟩
  | sign hOp _ ih =>
    obtain ⟨e', hOperand⟩ := ih
    exact ⟨_, .sign hOp hOperand⟩
  | trueLit pos => exact ⟨_, .trueLit pos⟩
  | falseLit pos => exact ⟨_, .falseLit pos⟩
  -- the only leaf that changes, and it is within the limit now
  | intLit pos hForm _ => exact ⟨_, .intLit pos hForm.shorten (shortDigits_length _)⟩
  | strLit pos hForm => exact ⟨_, .strLit pos hForm⟩
  | call hCallee hOperand args _ hList ih =>
    -- the arguments are shortened one by one, and stand in the same list
    obtain ⟨args', hArgs, hTokens, -⟩ := rows_shorten ih
    have hListed := Listed.shorten hList
    rw [← hTokens] at hListed
    rw [List.map_append, shorten_enclosed, hCallee.shorten]
    exact ⟨_, .call hCallee (d := .ordered) hOperand args' hArgs hListed⟩
  | parenthesized _ ih =>
    obtain ⟨e', hInner⟩ := ih
    rw [shorten_enclosed]
    exact ⟨e', .parenthesized hInner⟩
  | loc hLoc hOperand =>
    rw [hLoc.shorten]
    exact ⟨_, .loc hLoc hOperand⟩

/-- The shortened tokens of a statement are a statement. -/
theorem DerivesStmt.shorten {s : Stmt} (h : DerivesStmt .unlimited ts s) :
    ∃ s', DerivesStmt .ordered (ts.map Token.shorten) s' := by
  induction h with
  | ifThen hCond hDecls stmts _ ih =>
    -- the tree changes with the values, but the shape of the statement does not
    obtain ⟨cond', hCond'⟩ := hCond.shorten
    obtain ⟨stmts', hStmts, -, hTokens⟩ := rows_shorten ih
    rw [List.map_append, List.map_cons, shorten_enclosed, shorten_enclosed, List.map_append,
      varDecls_shorten hDecls, ← hTokens]
    exact ⟨_, .ifThen hCond' hDecls stmts' hStmts⟩
  | ifElse hCond hDecls stmts _ hDecls' stmts₂ _ ih ih' =>
    obtain ⟨cond', hCond'⟩ := hCond.shorten
    obtain ⟨stmts', hStmts, -, hTokens⟩ := rows_shorten ih
    obtain ⟨stmts₂', hStmts₂, -, hTokens₂⟩ := rows_shorten ih'
    rw [List.map_append, List.map_append, List.map_cons, List.map_cons, shorten_enclosed,
      shorten_enclosed, shorten_enclosed, List.map_append, List.map_append,
      varDecls_shorten hDecls, varDecls_shorten hDecls', ← hTokens, ← hTokens₂]
    exact ⟨_, .ifElse hCond' hDecls stmts' hStmts hDecls' stmts₂' hStmts₂⟩
  | loop hCond hDecls stmts _ ih =>
    obtain ⟨cond', hCond'⟩ := hCond.shorten
    obtain ⟨stmts', hStmts, -, hTokens⟩ := rows_shorten ih
    rw [List.map_append, List.map_cons, shorten_enclosed, shorten_enclosed, List.map_append,
      varDecls_shorten hDecls, ← hTokens]
    exact ⟨_, .loop hCond' hDecls stmts' hStmts⟩
  | read hTarget =>
    rw [List.map_cons, List.map_cons, List.map_append, hTarget.shorten]
    exact ⟨_, .read hTarget⟩
  | write hValue =>
    obtain ⟨value', hValue'⟩ := hValue.shorten
    rw [List.map_cons, List.map_cons, List.map_append]
    exact ⟨_, .write hValue'⟩
  | retNone => exact ⟨_, .retNone⟩
  | retSome hValue =>
    obtain ⟨value', hValue'⟩ := hValue.shorten
    rw [List.map_cons, List.map_append]
    exact ⟨_, .retSome hValue'⟩
  | call hCallee hOpening args hArgs hList =>
    obtain ⟨args', hArgs', hTokens, -⟩ := rows_shorten fun arg hArg => (hArgs arg hArg).shorten
    have hListed := Listed.shorten hList
    rw [← hTokens] at hListed
    rw [List.map_append, List.map_append, shorten_enclosed, hCallee.shorten]
    exact ⟨_, .call hCallee (d := .ordered) hOpening args' hArgs' hListed⟩
  | increment hTarget =>
    rw [List.map_append, hTarget.shorten]
    exact ⟨_, .increment hTarget⟩
  | decrement hTarget =>
    rw [List.map_append, hTarget.shorten]
    exact ⟨_, .decrement hTarget⟩
  | assign hTarget hOpening hValue =>
    obtain ⟨value', hValue'⟩ := hValue.shorten
    rw [List.map_append, List.map_cons, List.map_append, hTarget.shorten]
    exact ⟨_, .assign hTarget hOpening hValue'⟩

/-! ### Programs -/

/-- The shortened tokens of a declaration are a declaration. -/
theorem DerivesDecl.shorten {decl : Decl} (h : DerivesDecl .unlimited ts decl) :
    ∃ decl', DerivesDecl .ordered (ts.map Token.shorten) decl' := by
  cases h with
  | struct hId hFields hSome =>
    rw [List.map_cons, List.map_append, shorten_enclosed, hId.shorten, varDecls_shorten hFields]
    exact ⟨_, .struct hId hFields hSome⟩
  | func hResult hId formals hFormals hList hDecls hStmts =>
    obtain ⟨rows, hRows, rfl, -⟩ := hStmts
    obtain ⟨rows', hRows', -, hTokens⟩ := rows_shorten fun row hRow => (hRows row hRow).shorten
    -- formals have no numbers
    have hPlain : (formals.map (·.1)).map (List.map Token.shorten) = formals.map (·.1) := by
      rw [List.map_map]
      exact List.map_congr_left fun f hf => (hFormals f hf).shorten
    have hListed := Listed.shorten hList
    rw [hPlain] at hListed
    rw [List.map_append, List.map_append, List.map_append, shorten_enclosed, shorten_enclosed,
      List.map_append, hResult.shorten, hId.shorten, varDecls_shorten hDecls, ← hTokens]
    exact ⟨_, .func hResult hId formals hFormals hListed hDecls ⟨rows', hRows', rfl, rfl⟩⟩
  | var hDecl =>
    rw [hDecl.shorten]
    exact ⟨_, .var hDecl⟩

/-- With shorter numbers, a sentence is one that the parser reads. -/
theorem DerivesProgram.shorten {p : Program} (h : DerivesProgram .unlimited ts p) :
    ∃ p', DerivesProgram .ordered (ts.map Token.shorten) p' := by
  obtain ⟨rows, hRows, rfl, -⟩ := h
  obtain ⟨rows', hRows', -, hTokens⟩ := rows_shorten fun row hRow => (hRows row hRow).shorten
  exact ⟨⟨rows'.map (·.2)⟩, rows', hRows', hTokens.symm, rfl⟩

/-! ## Texts -/

/-- A text that is cut into tokens becomes one of the shorter tokens, with the same first character
and the same rest. -/
theorem FoundBehind.shorten {behind : Bool} {cs rest : List Char}
    (h : FoundBehind behind ts cs rest) (hForm : Formed ts) :
    ∃ cs', FoundBehind behind (ts.map Token.shorten) cs' rest ∧ cs'.head? = cs.head? := by
  induction h with
  | nil behind cs => exact ⟨cs, .nil behind cs, rfl⟩
  | @cons behind t ts cs mid rest hText hSome hEnded hSingle _ ih =>
    -- from the end to the front: what follows is shortened first, and starts with the same
    -- character
    obtain ⟨hToken, hOthers⟩ := List.forall_mem_cons.mp hForm
    obtain ⟨mid', hCut, hHead⟩ := ih hOthers
    obtain ⟨gap, hGap, rfl⟩ := trivia_of_token hText hSome
    have hShort := hToken.shorten
    have hNewText : skipTrivia (gap ++ (t.shorten.chars ++ mid')) = t.shorten.chars ++ mid' := by
      rw [hGap.skip, hShort.skip]
    refine ⟨gap ++ (t.shorten.chars ++ mid'), .cons hNewText hShort.ne_nil ?_ ?_ ?_, ?_⟩
    -- each token sees the first character behind it, and that one is as before
    · exact (hEnded.of_head hHead).shorten
    · exact fun hBehind hDouble => hSingle hBehind (hDouble.of_shorten.of_head hHead)
    · rw [Token.shorten_endsOperand]
      exact hCut
    · cases gap with
      | nil =>
        rw [List.nil_append, List.nil_append, List.head?_append_of_ne_nil _ hShort.ne_nil,
          List.head?_append_of_ne_nil _ hSome, Token.shorten_head?]
      | cons c gap => rfl

end NameResolution.Grammar
