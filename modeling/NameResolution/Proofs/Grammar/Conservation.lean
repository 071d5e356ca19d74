import NameResolution.Proofs.Grammar.Derivation
import NameResolution.Proofs.Tree.Marks

/-!
# Conservation — a derivation keeps what its tokens say

Keywords, brackets and separators give a tree its shape and are gone from it. All other tokens are
in the tree: as names, as literals and as operators, each one once and in the order of the text. A
number is kept as its value.

* `Token.mark?` — what a token becomes in a tree.
* `DerivesProgram.marks` — the marks of the tokens are those of the tree.
-/

namespace NameResolution.Grammar

/-! ## Marks of tokens -/

/-- The symbols that only give a tree its shape. -/
def separators : List (List Char) :=
  [['.'], [','], ['('], [')'], ['['], [']'], ['\x7b'], ['\x7d']]

/-- The name, literal or operator that a token becomes. -/
def Token.mark? : Token → Option Mark
  | keyword _ => none
  | symbol s => if s ∈ separators then none else some (.operator (String.ofList s))
  | truth pos value => some (.truth pos value)
  | name pos word => some (.name ⟨pos, word, none⟩)
  | number pos digits => some (.number pos (Text.decimalValue digits))
  | string pos literal => some (.string pos literal)

/-- What tokens say. -/
def marksOf (ts : List Token) : List Mark :=
  ts.filterMap Token.mark?

variable {d : Dialect} {ts us : List Token}

@[simp] theorem marksOf_nil : marksOf [] = [] := rfl

@[simp] theorem marksOf_append (ts us : List Token) :
    marksOf (ts ++ us) = marksOf ts ++ marksOf us :=
  List.filterMap_append

@[simp] theorem marksOf_keyword (k : Keyword) (ts : List Token) :
    marksOf (.keyword k :: ts) = marksOf ts := rfl

@[simp] theorem marksOf_separator {s : List Char} (h : s ∈ separators) (ts : List Token) :
    marksOf (.symbol s :: ts) = marksOf ts := by
  rw [marksOf, List.filterMap_cons, Token.mark?, if_pos h]
  rfl

/-- An operator leaves itself as a mark. -/
@[simp] theorem marksOf_operator {s : List Char} (h : s ∉ separators) (ts : List Token) :
    marksOf (.symbol s :: ts) = .operator (String.ofList s) :: marksOf ts := by
  rw [marksOf, List.filterMap_cons, Token.mark?, if_neg h]
  rfl

@[simp] theorem marksOf_enclosed {opening closing : Char} (hOpening : [opening] ∈ separators)
    (hClosing : [closing] ∈ separators) (ts : List Token) :
    marksOf (enclosed opening closing ts) = marksOf ts := by
  rw [enclosed, marksOf_separator hOpening, marksOf_append, marksOf_separator hClosing,
    marksOf_nil, List.append_nil]

/-! ## Rows -/

section Rows

variable {α : Type} {marks : α → List Mark} {rows : List (List Token × α)}
  (hRows : ∀ row ∈ rows, marksOf row.1 = marks row.2)
include hRows

/-- Rows leave the marks of their trees, if each row does. -/
theorem marksOf_rows : marksOf (rows.flatMap (·.1)) = (rows.map (·.2)).flatMap marks := by
  induction rows with
  | nil => rfl
  | cons row rows ih =>
    obtain ⟨hFirst, hOthers⟩ := List.forall_mem_cons.mp hRows
    rw [List.flatMap_cons, marksOf_append, hFirst, ih hOthers, List.map_cons, List.flatMap_cons]

/-- Commas in front of rows leave no mark. -/
theorem marksOf_behindCommas :
    marksOf (behindCommas (rows.map (·.1))) = (rows.map (·.2)).flatMap marks := by
  rw [← marksOf_rows hRows, behindCommas, marksOf, marksOf, List.filterMap_flatMap,
    List.filterMap_flatMap, List.flatMap_map]
  rfl

/-- A list leaves the marks of its items, however the dialect writes it. -/
theorem marksOf_listed (h : d.Listed (rows.map (·.1)) ts) :
    marksOf ts = (rows.map (·.2)).flatMap marks := by
  rcases h with rfl | ⟨-, rfl⟩
  · cases rows with
    | nil => rfl
    | cons row rows =>
      obtain ⟨hFirst, hOthers⟩ := List.forall_mem_cons.mp hRows
      show marksOf (row.1 ++ behindCommas (rows.map (·.1))) = _
      rw [marksOf_append, hFirst, marksOf_behindCommas hOthers, List.map_cons, List.flatMap_cons]
  · exact marksOf_behindCommas hRows

end Rows

/-! ## Names and expressions -/

theorem DerivesIdent.marks {id : Ident} (h : DerivesIdent ts id) : marksOf ts = [.name id] := by
  cases h
  rfl

theorem DerivesLoc.marks {loc : Loc} (h : DerivesLoc ts loc) : marksOf ts = loc.marks := by
  induction h with
  | var hId => exact hId.marks
  | field _ hId ih => rw [marksOf_append, ih, marksOf_operator (by decide), hId.marks]; rfl

/-- No operator of any level is a separator. -/
theorem Level.operators_marked (level : Level) : ∀ op ∈ level.operators, op ∉ separators := by
  cases level <;> decide

/-- The tokens of an expression leave the marks of its tree, in the order of the text. -/
theorem DerivesExpr.marks {level : Level} {e : Expr} (h : DerivesExpr d level ts e) :
    marksOf ts = e.marks := by
  induction h with
  -- a level adds nothing; every operation adds its operator, where it stands
  | tighter _ _ ih => exact ih
  | assign hTarget _ ih =>
    rw [marksOf_append, marksOf_operator (by decide), hTarget.marks, ih, Expr.marks]
  | operation hOp _ _ _ ihLeft ihRight =>
    rw [marksOf_append, marksOf_operator (Level.operators_marked _ _ hOp), ihLeft, ihRight,
      Expr.marks]
  | comparison hOp _ _ ihLeft ihRight =>
    have hMarked : ∀ op ∈ comparisons, op ∉ separators := by decide
    rw [marksOf_append, marksOf_operator (hMarked _ hOp), ihLeft, ihRight, Expr.marks]
  | sign hOp _ ih =>
    have hMarked : ∀ op ∈ signs, op ∉ separators := by decide
    rw [marksOf_operator (hMarked _ hOp), ih, Expr.marks]
  | trueLit pos | falseLit pos | intLit pos _ _ | strLit pos _ => rfl
  | call hCallee _ args _ hList ih =>
    rw [marksOf_append, hCallee.marks, marksOf_enclosed (by decide) (by decide),
      marksOf_listed ih hList, Expr.marks, Expr.marksAll_eq_flatMap]
    rfl
  -- parentheses are what the tree forgets, so they leave no mark
  | parenthesized _ ih => rw [marksOf_enclosed (by decide) (by decide), ih]
  | loc hLoc _ => rw [hLoc.marks, Expr.marks]

/-! ## Statements -/

theorem DerivesType.marks {type : TypeRef} (h : DerivesType ts type) :
    marksOf ts = type.marks := by
  cases h with
  | boolean | integer | void => rfl
  | struct hId => rw [marksOf_keyword, hId.marks, TypeRef.marks]

theorem DerivesVarDecl.marks {decl : VarDecl} (h : DerivesVarDecl ts decl) :
    marksOf ts = decl.marks := by
  cases h with
  | intro hType hId =>
    rw [marksOf_append, marksOf_append, hType.marks, hId.marks, marksOf_separator (by decide),
      marksOf_nil, List.append_nil, VarDecl.marks]

theorem DerivesFormal.marks {f : Formal} (h : DerivesFormal ts f) : marksOf ts = f.marks := by
  cases h with
  | intro hType hId => rw [marksOf_append, hType.marks, hId.marks, Formal.marks]

/-- Declarations leave their marks in order. -/
theorem marksOf_varDecls {decls : List VarDecl} (h : Rows DerivesVarDecl ts decls) :
    marksOf ts = decls.flatMap VarDecl.marks := by
  obtain ⟨rows, hRows, rfl, rfl⟩ := h
  exact marksOf_rows fun row hRow => (hRows row hRow).marks

/-- A body, whatever its brackets are. -/
theorem marksOf_body {decls : List VarDecl} {stmts : List (List Token × Stmt)}
    {opening closing : Char} (hDecls : Rows DerivesVarDecl us decls)
    (hStmts : ∀ s ∈ stmts, marksOf s.1 = s.2.marks) (hOpening : [opening] ∈ separators)
    (hClosing : [closing] ∈ separators) :
    marksOf (enclosed opening closing (us ++ stmts.flatMap (·.1))) =
      decls.flatMap VarDecl.marks ++ Stmt.marksAll (stmts.map (·.2)) := by
  rw [marksOf_enclosed hOpening hClosing, marksOf_append, marksOf_varDecls hDecls,
    marksOf_rows hStmts, Stmt.marksAll_eq_flatMap]

/-- A condition leaves the marks of its expression. -/
theorem marksOf_condition {cond : Expr} (k : Keyword) (h : DerivesExpr d .assignment ts cond) :
    marksOf (.keyword k :: enclosed '(' ')' ts) = cond.marks := by
  rw [marksOf_keyword, marksOf_enclosed (by decide) (by decide), h.marks]

/-- The tokens of a statement leave the marks of its tree, in the order of the text. -/
theorem DerivesStmt.marks {s : Stmt} (h : DerivesStmt d ts s) : marksOf ts = s.marks := by
  induction h with
  | ifThen hCond hDecls stmts _ ih =>
    rw [marksOf_append, marksOf_condition _ hCond,
      marksOf_body hDecls ih (by decide) (by decide), Stmt.marks]
  -- condition, first body and second body, in the order of the text
  | ifElse hCond hDecls stmts _ hDecls' stmts' _ ih ih' =>
    rw [marksOf_append, marksOf_append, marksOf_condition _ hCond,
      marksOf_body hDecls ih (by decide) (by decide), marksOf_keyword,
      marksOf_body hDecls' ih' (by decide) (by decide), Stmt.marks]
  | loop hCond hDecls stmts _ ih =>
    rw [marksOf_append, marksOf_condition _ hCond,
      marksOf_body hDecls ih (by decide) (by decide), Stmt.marks]
  | read hTarget =>
    rw [marksOf_keyword, marksOf_operator (by decide), marksOf_append, hTarget.marks,
      marksOf_separator (by decide), marksOf_nil, List.append_nil, Stmt.marks]
  | write hValue =>
    rw [marksOf_keyword, marksOf_operator (by decide), marksOf_append, hValue.marks,
      marksOf_separator (by decide), marksOf_nil, List.append_nil, Stmt.marks]
  -- the word alone leaves nothing
  | retNone => rfl
  | retSome hValue =>
    rw [marksOf_keyword, marksOf_append, hValue.marks, marksOf_separator (by decide), marksOf_nil,
      List.append_nil, Stmt.marks]
  | call hCallee _ args hArgs hList =>
    rw [marksOf_append, marksOf_append, hCallee.marks, marksOf_enclosed (by decide) (by decide),
      marksOf_listed (fun arg hArg => (hArgs arg hArg).marks) hList,
      marksOf_separator (by decide), marksOf_nil, List.append_nil, Stmt.marks,
      Expr.marksAll_eq_flatMap]
    rfl
  | increment hTarget | decrement hTarget =>
    rw [marksOf_append, hTarget.marks, marksOf_operator (by decide),
      marksOf_separator (by decide), Stmt.marks]
    rfl
  | assign hTarget _ hValue =>
    rw [marksOf_append, hTarget.marks, marksOf_operator (by decide), marksOf_append, hValue.marks,
      marksOf_separator (by decide), marksOf_nil, List.append_nil, Stmt.marks]

/-! ## Programs -/

/-- The tokens of a declaration leave the marks of its tree, in the order of the text. -/
theorem DerivesDecl.marks {decl : Decl} (h : DerivesDecl d ts decl) :
    marksOf ts = decl.marks := by
  cases h with
  | @struct _ _ id fields hId hFields _ =>
    -- what a declaration is marked as has nothing to do with what it says
    have hMarked : (fields.map fun field => { field with isField := true }).flatMap
        VarDecl.marks = fields.flatMap VarDecl.marks := by
      rw [List.flatMap_map]
      rfl
    rw [marksOf_keyword, marksOf_append, hId.marks, marksOf_enclosed (by decide) (by decide),
      marksOf_varDecls hFields, Decl.marks, StructDecl.marks, hMarked]
    rfl
  | func hResult hId formals hFormals hList hDecls hStmts =>
    obtain ⟨rows, hRows, rfl, rfl⟩ := hStmts
    rw [marksOf_append, marksOf_append, marksOf_append, hResult.marks, hId.marks,
      marksOf_enclosed (by decide) (by decide),
      marksOf_listed (fun f hf => (hFormals f hf).marks) hList,
      marksOf_body hDecls (fun row hRow => (hRows row hRow).marks) (by decide) (by decide),
      Decl.marks, FuncDecl.marks]
  | var hDecl => exact hDecl.marks

/-- The names, literals and operators of a sentence are those of its tree, in the same order. -/
theorem DerivesProgram.marks {p : Program} (h : DerivesProgram d ts p) : marksOf ts = p.marks := by
  obtain ⟨rows, hRows, rfl, hDecls⟩ := h
  rw [marksOf_rows fun row hRow => (hRows row hRow).marks, Program.marks, hDecls]

end NameResolution.Grammar
