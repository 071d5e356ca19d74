import NameResolution.Proofs.Grammar.Composition
import NameResolution.Proofs.Tree.Leads

/-!
# Relabelled sentences — other names and positions in the same places

The rules of the grammar do not look at positions, and at a name only where it leads an operand or
a statement. So tokens with other names and positions derive the tree with these names and
positions, as long as the leads are still allowed.

* `Dialect.Admits`, `DerivesProgram.admitted` — the words that a dialect allows for a lead.
* `Token.relabel`, `DerivesProgram.relabel` — relabelled tokens derive the relabelled tree.
-/

namespace NameResolution.Grammar

variable {α : Type} {d : Dialect} {ts us : List Token}

/-! ## Leads -/

/-- The words that the dialect allows for a lead. -/
def Dialect.Admits (d : Dialect) : Lead → String → Prop
  | .operand => d.operand
  | .opening => d.opening

/-- The words that lead the operands of an expression are admitted by the dialect. -/
theorem DerivesExpr.admitted {level : Level} {e : Expr} (h : DerivesExpr d level ts e) :
    ∀ lead ∈ e.leads, d.Admits lead.1 lead.2.name := by
  induction h with
  | tighter _ _ ih | assign _ _ ih | sign _ _ ih | parenthesized _ ih => exact ih
  | operation _ _ _ _ ihLeft ihRight | comparison _ _ _ ihLeft ihRight =>
    exact List.forall_mem_append.mpr ⟨ihLeft, ihRight⟩
  | trueLit | falseLit | intLit | strLit => exact List.forall_mem_nil _
  | call _ hOperand args _ _ ih =>
    rw [Expr.leads, Expr.leadsAll_eq_flatMap, List.flatMap_map]
    exact List.forall_mem_cons.mpr ⟨hOperand, List.forall_mem_flatMap.mpr ih⟩
  | loc _ hOperand => exact List.forall_mem_singleton.mpr hOperand

/-- The words that lead statements and operands are admitted by the dialect. -/
theorem DerivesStmt.admitted {s : Stmt} (h : DerivesStmt d ts s) :
    ∀ lead ∈ s.leads, d.Admits lead.1 lead.2.name := by
  -- the statements of a body
  have hBody : ∀ {stmts : List (List Token × Stmt)},
      (∀ s ∈ stmts, ∀ lead ∈ s.2.leads, d.Admits lead.1 lead.2.name) →
      ∀ lead ∈ Stmt.leadsAll (stmts.map (·.2)), d.Admits lead.1 lead.2.name := by
    intro stmts hStmts
    rw [Stmt.leadsAll_eq_flatMap, List.flatMap_map]
    exact List.forall_mem_flatMap.mpr hStmts
  induction h with
  | ifThen hCond _ stmts _ ih | loop hCond _ stmts _ ih =>
    exact List.forall_mem_append.mpr ⟨hCond.admitted, hBody ih⟩
  | ifElse hCond _ stmts _ _ stmts' _ ih ih' =>
    rw [Stmt.leads, List.forall_mem_append, List.forall_mem_append]
    exact ⟨⟨hCond.admitted, hBody ih⟩, hBody ih'⟩
  | read | increment | decrement | retNone => exact List.forall_mem_nil _
  | write hValue | retSome hValue => exact hValue.admitted
  | call _ hOpening args hArgs _ =>
    rw [Stmt.leads, Expr.leadsAll_eq_flatMap, List.flatMap_map]
    exact List.forall_mem_cons.mpr ⟨hOpening, List.forall_mem_flatMap.mpr fun arg hArg =>
      (hArgs arg hArg).admitted⟩
  | assign _ hOpening hValue => exact List.forall_mem_cons.mpr ⟨hOpening, hValue.admitted⟩

/-- The leads of a derived tree are such as the dialect allows. -/
theorem DerivesProgram.admitted {p : Program} (h : DerivesProgram d ts p) :
    ∀ lead ∈ p.leads, d.Admits lead.1 lead.2.name := by
  obtain ⟨rows, hRows, -, hDecls⟩ := h
  rw [Program.leads, hDecls, List.flatMap_map, List.forall_mem_flatMap]
  intro row hRow
  have hDecl := hRows row hRow
  generalize row.1 = ts, row.2 = decl at hDecl
  cases hDecl with
  -- only functions have statements, and only those have leading words
  | struct | var => exact List.forall_mem_nil _
  | func _ _ _ _ _ _ hStmts =>
    obtain ⟨stmts, hStmts, -, rfl⟩ := hStmts
    rw [Decl.leads, Stmt.leadsAll_eq_flatMap, List.flatMap_map, List.forall_mem_flatMap]
    exact fun s hs => (hStmts s hs).admitted

/-! ## Tokens -/

/-- The token with another position, and with another name if it is one. -/
def Token.relabel (place : Position → Position) (name : Ident → Ident) : Token → Token
  | .truth pos value => .truth (place pos) value
  | .name pos word => .name (name ⟨pos, word, none⟩).pos (name ⟨pos, word, none⟩).name
  | .number pos digits => .number (place pos) digits
  | .string pos literal => .string (place pos) literal
  | .keyword k => .keyword k
  | .symbol s => .symbol s

/-- Identifiers as a text has them are relabelled to such. -/
def KeepsNames (name : Ident → Ident) : Prop :=
  ∀ id, isName id.name.toList = true → id.symbol? = none →
    isName (name id).name.toList = true ∧ (name id).symbol? = none

section Relabel

variable (place : Position → Position) (name : Ident → Ident)

/-- A map that leaves commas alone can be taken before the commas are put in. -/
theorem map_behindCommas (f : Token → Token) (hComma : f (.symbol [',']) = .symbol [','])
    (rows : List (List Token)) :
    (behindCommas rows).map f = behindCommas (rows.map (List.map f)) := by
  rw [behindCommas, List.map_flatMap, behindCommas, List.flatMap_map]
  simp only [List.map_cons, hComma]

/-- A map that leaves commas alone makes a list of a list. -/
theorem Dialect.Listed.map {rows : List (List Token)} (h : d.Listed rows ts) (f : Token → Token)
    (hComma : f (.symbol [',']) = .symbol [',']) :
    d.Listed (rows.map (List.map f)) (ts.map f) := by
  rcases h with rfl | ⟨hLeading, rfl⟩
  · left
    cases rows with
    | nil => rfl
    | cons row rows =>
      rw [betweenCommas, List.map_append, map_behindCommas f hComma]
      rfl
  · exact .inr ⟨hLeading, map_behindCommas f hComma rows⟩

/-- A row of tokens and its value, both relabelled. -/
def relabelRow (f : Token → Token) (g : α → α) (row : List Token × α) : List Token × α :=
  (row.1.map f, g row.2)

/-- The tokens and the trees of relabelled rows. -/
theorem map_relabelRow (f : Token → Token) (g : α → α) (rows : List (List Token × α)) :
    (rows.map (relabelRow f g)).map (·.1) = (rows.map (·.1)).map (List.map f) ∧
      (rows.map (relabelRow f g)).map (·.2) = (rows.map (·.2)).map g ∧
      (rows.map (relabelRow f g)).flatMap (·.1) = (rows.flatMap (·.1)).map f := by
  refine ⟨?_, ?_, ?_⟩
  · rw [List.map_map, List.map_map]
    rfl
  · rw [List.map_map, List.map_map]
    rfl
  · rw [List.map_flatMap, List.flatMap_map]
    rfl

/-- Rows whose tokens and trees are mapped together are rows. -/
theorem Rows.map {derives : List Token → α → Prop} {xs : List α} (h : Rows derives ts xs)
    (f : Token → Token) (g : α → α)
    (hMap : ∀ us, ∀ x ∈ xs, derives us x → derives (us.map f) (g x)) :
    Rows derives (ts.map f) (xs.map g) := by
  obtain ⟨rows, hRows, rfl, rfl⟩ := h
  obtain ⟨-, hValues, hTokens⟩ := map_relabelRow f g rows
  refine ⟨rows.map (relabelRow f g), ?_, hTokens.symm, hValues.symm⟩
  rw [List.forall_mem_map]
  exact fun row hRow => hMap row.1 row.2 (List.mem_map_of_mem hRow) (hRows row hRow)

/-- Relabelling leaves brackets alone. -/
theorem map_enclosed (opening closing : Char) (ts : List Token) :
    (enclosed opening closing ts).map (Token.relabel place name) =
      enclosed opening closing (ts.map (Token.relabel place name)) := by
  rw [enclosed, List.map_cons, List.map_append]
  rfl

/-! ## Names, types and variables -/

variable {name} (hNames : KeepsNames name)
include hNames

theorem DerivesIdent.relabel {id : Ident} (h : DerivesIdent ts id) :
    DerivesIdent (ts.map (Token.relabel place name)) (name id) := by
  cases h with
  | @name pos word hName =>
    have hKept := hNames ⟨pos, word, none⟩ hName rfl
    show DerivesIdent [.name (name ⟨pos, word, none⟩).pos (name ⟨pos, word, none⟩).name] _
    generalize name ⟨pos, word, none⟩ = id' at hKept
    obtain ⟨pos', word', symbol?⟩ := id'
    obtain ⟨hName', rfl : symbol? = none⟩ := hKept
    exact .name pos' hName'

theorem DerivesLoc.relabel {loc : Loc} (h : DerivesLoc ts loc) :
    DerivesLoc (ts.map (Token.relabel place name)) (loc.relabel name) := by
  induction h with
  | var hId => exact .var (hId.relabel place hNames)
  | field _ hId ih =>
    rw [List.map_append, List.map_cons]
    exact .field ih (hId.relabel place hNames)

theorem DerivesType.relabel {type : TypeRef} (h : DerivesType ts type) :
    DerivesType (ts.map (Token.relabel place name)) (type.relabel name) := by
  cases h with
  | boolean => exact .boolean
  | integer => exact .integer
  | void => exact .void
  | struct hId => exact .struct (hId.relabel place hNames)

theorem DerivesVarDecl.relabel {decl : VarDecl} (h : DerivesVarDecl ts decl) :
    DerivesVarDecl (ts.map (Token.relabel place name)) (decl.relabel name) := by
  cases h with
  | intro hType hId =>
    rw [List.map_append, List.map_append]
    exact .intro (hType.relabel place hNames) (hId.relabel place hNames)

theorem DerivesFormal.relabel {f : Formal} (h : DerivesFormal ts f) :
    DerivesFormal (ts.map (Token.relabel place name)) (f.relabel name) := by
  cases h with
  | intro hType hId =>
    rw [List.map_append]
    exact .intro (hType.relabel place hNames) (hId.relabel place hNames)

theorem varDecls_relabel {decls : List VarDecl} (h : Rows DerivesVarDecl ts decls) :
    Rows DerivesVarDecl (ts.map (Token.relabel place name)) (decls.map (VarDecl.relabel name)) :=
  h.map _ _ fun _ _ _ hDecl => hDecl.relabel place hNames

/-! ## Expressions -/

/-- A relabelled expression is derived from the relabelled tokens, if the dialect admits the new
leading words. -/
theorem DerivesExpr.relabel {level : Level} {e : Expr} (h : DerivesExpr d level ts e)
    (hLeads : ∀ lead ∈ e.leads, d.Admits lead.1 (name lead.2).name) :
    DerivesExpr d level (ts.map (Token.relabel place name)) (e.relabel place name) := by
  induction h with
  | tighter hNext _ ih => exact .tighter hNext (ih hLeads)
  -- the target of an assignment inside an expression leads nothing: where an assignment is tried,
  -- its target is read before anything else is
  | assign hTarget _ ih =>
    rw [List.map_append, List.map_cons]
    exact .assign (hTarget.relabel place hNames) (ih hLeads)
  | operation hOp hNext _ _ ihLeft ihRight =>
    obtain ⟨hLeft, hRight⟩ := List.forall_mem_append.mp hLeads
    rw [List.map_append, List.map_cons]
    exact .operation hOp hNext (ihLeft hLeft) (ihRight hRight)
  | comparison hOp _ _ ihLeft ihRight =>
    obtain ⟨hLeft, hRight⟩ := List.forall_mem_append.mp hLeads
    rw [List.map_append, List.map_cons]
    exact .comparison hOp (ihLeft hLeft) (ihRight hRight)
  | sign hOp _ ih => exact .sign hOp (ih hLeads)
  | trueLit pos => exact .trueLit (place pos)
  | falseLit pos => exact .falseLit (place pos)
  | intLit pos hForm hDigits => exact .intLit (place pos) hForm hDigits
  | strLit pos hForm => exact .strLit (place pos) hForm
  | call hCallee _ args _ hList ih =>
    -- the callee leads the operand, and each argument has its own leading words
    rw [Expr.leads, Expr.leadsAll_eq_flatMap, List.flatMap_map] at hLeads
    obtain ⟨hOperand, hArgs⟩ := List.forall_mem_cons.mp hLeads
    rw [List.forall_mem_flatMap] at hArgs
    obtain ⟨hTokens, hValues, -⟩ :=
      map_relabelRow (Token.relabel place name) (Expr.relabel place name) args
    have hListed := hList.map (Token.relabel place name) rfl
    rw [← hTokens] at hListed
    rw [List.map_append, map_enclosed, Expr.relabel, Expr.relabelAll_eq_map, ← hValues]
    refine .call (hCallee.relabel place hNames) hOperand _ ?_ hListed
    rw [List.forall_mem_map]
    exact fun arg hArg => ih arg hArg (hArgs arg hArg)
  | parenthesized _ ih =>
    rw [map_enclosed]
    exact .parenthesized (ih hLeads)
  | loc hLoc _ =>
    refine .loc (hLoc.relabel place hNames) ?_
    -- the root of a location is the word that leads it
    rw [Loc.root_relabel]
    exact hLeads _ (List.mem_singleton_self _)

/-! ## Statements -/

/-- A relabelled statement is derived from the relabelled tokens, if the dialect admits the new
leading words. -/
theorem DerivesStmt.relabel {s : Stmt} (h : DerivesStmt d ts s)
    (hLeads : ∀ lead ∈ s.leads, d.Admits lead.1 (name lead.2).name) :
    DerivesStmt d (ts.map (Token.relabel place name)) (s.relabel place name) := by
  -- the leads of a body are those of its statements
  have hBody : ∀ {stmts : List (List Token × Stmt)},
      (∀ s ∈ stmts, (∀ lead ∈ s.2.leads, d.Admits lead.1 (name lead.2).name) →
        DerivesStmt d (s.1.map (Token.relabel place name)) (s.2.relabel place name)) →
      (∀ lead ∈ Stmt.leadsAll (stmts.map (·.2)), d.Admits lead.1 (name lead.2).name) →
      ∀ s ∈ stmts.map (relabelRow (Token.relabel place name) (Stmt.relabel place name)),
        DerivesStmt d s.1 s.2 := by
    intro stmts ih hLeads
    rw [Stmt.leadsAll_eq_flatMap, List.flatMap_map, List.forall_mem_flatMap] at hLeads
    rw [List.forall_mem_map]
    exact fun s hs => ih s hs (hLeads s hs)
  have hRows := fun stmts : List (List Token × Stmt) =>
    (map_relabelRow (Token.relabel place name) (Stmt.relabel place name) stmts).2
  induction h with
  | ifThen hCond hDecls stmts _ ih =>
    obtain ⟨hCondLeads, hBodyLeads⟩ := List.forall_mem_append.mp hLeads
    obtain ⟨hValues, hTokens⟩ := hRows stmts
    rw [List.map_append, List.map_cons, map_enclosed, map_enclosed, List.map_append, ← hTokens,
      Stmt.relabel, Stmt.relabelAll_eq_map, ← hValues]
    exact .ifThen (hCond.relabel place hNames hCondLeads) (varDecls_relabel place hNames hDecls) _
      (hBody ih hBodyLeads)
  | ifElse hCond hDecls stmts _ hDecls' stmts' _ ih ih' =>
    rw [Stmt.leads, List.forall_mem_append, List.forall_mem_append] at hLeads
    obtain ⟨⟨hCondLeads, hThenLeads⟩, hElseLeads⟩ := hLeads
    obtain ⟨hValues, hTokens⟩ := hRows stmts
    obtain ⟨hValues', hTokens'⟩ := hRows stmts'
    rw [List.map_append, List.map_append, List.map_cons, List.map_cons, map_enclosed,
      map_enclosed, map_enclosed, List.map_append, List.map_append, ← hTokens, ← hTokens',
      Stmt.relabel, Stmt.relabelAll_eq_map, Stmt.relabelAll_eq_map, ← hValues, ← hValues']
    exact .ifElse (hCond.relabel place hNames hCondLeads) (varDecls_relabel place hNames hDecls) _
      (hBody ih hThenLeads) (varDecls_relabel place hNames hDecls') _ (hBody ih' hElseLeads)
  | loop hCond hDecls stmts _ ih =>
    obtain ⟨hCondLeads, hBodyLeads⟩ := List.forall_mem_append.mp hLeads
    obtain ⟨hValues, hTokens⟩ := hRows stmts
    rw [List.map_append, List.map_cons, map_enclosed, map_enclosed, List.map_append, ← hTokens,
      Stmt.relabel, Stmt.relabelAll_eq_map, ← hValues]
    exact .loop (hCond.relabel place hNames hCondLeads) (varDecls_relabel place hNames hDecls) _
      (hBody ih hBodyLeads)
  | read hTarget =>
    rw [List.map_cons, List.map_cons, List.map_append]
    exact .read (hTarget.relabel place hNames)
  | write hValue =>
    rw [List.map_cons, List.map_cons, List.map_append]
    exact .write (hValue.relabel place hNames hLeads)
  | retNone => exact .retNone
  | retSome hValue =>
    rw [List.map_cons, List.map_append]
    exact .retSome (hValue.relabel place hNames hLeads)
  | call hCallee _ args hArgs hList =>
    rw [Stmt.leads, Expr.leadsAll_eq_flatMap, List.flatMap_map] at hLeads
    obtain ⟨hOpening, hArgLeads⟩ := List.forall_mem_cons.mp hLeads
    rw [List.forall_mem_flatMap] at hArgLeads
    obtain ⟨hTokens, hValues, -⟩ :=
      map_relabelRow (Token.relabel place name) (Expr.relabel place name) args
    have hListed := hList.map (Token.relabel place name) rfl
    rw [← hTokens] at hListed
    rw [List.map_append, List.map_append, map_enclosed, Stmt.relabel, Expr.relabelAll_eq_map,
      ← hValues]
    refine .call (hCallee.relabel place hNames) hOpening _ ?_ hListed
    rw [List.forall_mem_map]
    exact fun arg hArg => (hArgs arg hArg).relabel place hNames (hArgLeads arg hArg)
  | increment hTarget =>
    rw [List.map_append]
    exact .increment (hTarget.relabel place hNames)
  | decrement hTarget =>
    rw [List.map_append]
    exact .decrement (hTarget.relabel place hNames)
  | assign hTarget _ hValue =>
    obtain ⟨hOpening, hValueLeads⟩ := List.forall_mem_cons.mp hLeads
    rw [List.map_append, List.map_cons, List.map_append]
    refine .assign (hTarget.relabel place hNames) ?_ (hValue.relabel place hNames hValueLeads)
    rw [Loc.root_relabel]
    exact hOpening

/-! ## Declarations and programs -/

/-- A relabelled declaration is derived from the relabelled tokens, if the dialect admits the new
leading words. -/
theorem DerivesDecl.relabel {decl : Decl} (h : DerivesDecl d ts decl)
    (hLeads : ∀ lead ∈ decl.leads, d.Admits lead.1 (name lead.2).name) :
    DerivesDecl d (ts.map (Token.relabel place name)) (decl.relabel place name) := by
  cases h with
  | @struct _ _ id fields hId hFields hSome =>
    -- a field is a variable before it is marked as a field
    have hMarked : (fields.map fun field => { field with isField := true }).map
        (VarDecl.relabel name) =
          (fields.map (VarDecl.relabel name)).map fun field => { field with isField := true } := by
      rw [List.map_map, List.map_map]
      rfl
    rw [List.map_cons, List.map_append, map_enclosed, Decl.relabel, StructDecl.relabel, hMarked]
    exact .struct (hId.relabel place hNames) (varDecls_relabel place hNames hFields)
      (by simpa using hSome)
  | func hResult hId formals hFormals hList hDecls hStmts =>
    obtain ⟨hTokens, hValues, -⟩ :=
      map_relabelRow (Token.relabel place name) (Formal.relabel name) formals
    have hListed := hList.map (Token.relabel place name) rfl
    rw [← hTokens] at hListed
    rw [Decl.leads, Stmt.leadsAll_eq_flatMap, List.forall_mem_flatMap] at hLeads
    rw [List.map_append, List.map_append, List.map_append, map_enclosed, map_enclosed,
      List.map_append, Decl.relabel, FuncDecl.relabel, Block.relabel, Stmt.relabelAll_eq_map,
      ← hValues]
    refine .func (hResult.relabel place hNames) (hId.relabel place hNames) _ ?_ hListed
      (varDecls_relabel place hNames hDecls) (hStmts.map _ _ ?_)
    · rw [List.forall_mem_map]
      exact fun f hf => (hFormals f hf).relabel place hNames
    · exact fun _ s hs hDerives => hDerives.relabel place hNames (hLeads s hs)
  | var hDecl => exact .var (hDecl.relabel place hNames)

/-- Relabelled tokens derive the relabelled tree, where the dialect allows its leads. -/
theorem DerivesProgram.relabel {p : Program} (h : DerivesProgram d ts p)
    (hLeads : ∀ lead ∈ p.leads, d.Admits lead.1 (name lead.2).name) :
    DerivesProgram d (ts.map (Token.relabel place name)) (p.relabel place name) := by
  rw [Program.leads, List.forall_mem_flatMap] at hLeads
  exact Rows.map h _ _ fun _ decl hDecl hDerives =>
    hDerives.relabel place hNames (hLeads decl hDecl)

end Relabel

end NameResolution.Grammar
