import NameResolution.Proofs.Grammar.Derivation

/-!
# Tokens of sentences — what holds of the tokens of every derivation

A property of token lists holds of every sentence if it is kept by each way in which the grammar
puts sentences together. Most properties look at no brackets and no commas: they hold of single
tokens and are kept where lists are put together. The colon is the only token that the grammar
allows in one place alone.

* `Composed`, `DerivesProgram.holds` — properties that sentences have.
* `Compositional` — those that take brackets and commas like any other token.
* `DerivesProgram.formed` — a sentence consists of tokens of the language.
* `Dialect.Listed.isInfix` — the parts that lists and brackets have.
-/

namespace NameResolution.Grammar

/-! ## Properties of all sentences -/

/-- The symbols that the grammar allows in a few places only: in front of a field, between the items
of a list, and around lists and bodies. -/
def framing : List (List Char) := [[':'], [','], ['('], ['[']]

/-- All other symbols. -/
def plainSymbols : List (List Char) := Token.punctuation.filter fun s => !framing.contains s

/-- The property is kept by every way in which the grammar makes sentences of tokens. The words
`TRUE` and `FALSE` are truth values wherever they stand. -/
structure Composed (d : Dialect) (P : List Token → Prop) : Prop where
  nil : P []
  append : ∀ {ts us}, P ts → P us → P (ts ++ us)
  -- the tokens that frame other parts, and the truth values, are not put in alone
  single : ∀ {t : Token}, t.WellFormed → (∀ s ∈ framing, t ≠ .symbol s) →
    (∀ value, t ≠ .keyword (Token.truthWord value)) → P [t]
  field : ∀ {ts us loc id}, DerivesLoc ts loc → DerivesIdent us id → P ts → P us →
    P (ts ++ .symbol [':'] :: us)
  parentheses : ∀ {ts}, P ts → P (enclosed '(' ')' ts)
  brackets : ∀ {ts}, P ts → P (enclosed '[' ']' ts)
  comma : ∀ {ts us}, ts ≠ [] → us ≠ [] → P ts → P us → P (ts ++ .symbol [','] :: us)
  leading : d.leadingComma → ∀ {ts}, P ts → P (.symbol [','] :: ts)

section Holds

variable {P : List Token → Prop} {ts us : List Token} {d : Dialect}

namespace Composed

variable (hP : Composed d P)
include hP

/-- A keyword that is no truth value may stand in front. -/
theorem keyword (k : Keyword) (hPlain : ∀ value, k ≠ Token.truthWord value) (h : P ts) :
    P (.keyword k :: ts) := by
  refine hP.append (hP.single (t := .keyword k) trivial (by simp) ?_) h
  rintro value hSame
  cases hSame
  exact hPlain value rfl

/-- A symbol that frames nothing may stand in front. -/
theorem symbol {s : List Char} (hPlain : s ∈ plainSymbols) (h : P ts) :
    P (.symbol s :: ts) := by
  obtain ⟨hKnown, hOther⟩ := List.mem_filter.mp hPlain
  have hOther : s ∉ framing := by simpa using hOther
  refine hP.append (hP.single (t := .symbol s) hKnown ?_ nofun) h
  rintro f hFraming hSame
  cases hSame
  exact hOther hFraming

/-- A symbol that frames nothing may stand between two parts. -/
theorem between (h : P ts) {s : List Char} (hPlain : s ∈ plainSymbols)
    (h' : P us) : P (ts ++ .symbol s :: us) :=
  hP.append h (hP.symbol hPlain h')

/-- A symbol that frames nothing may stand behind. -/
theorem ended (h : P ts) {s : List Char} (hPlain : s ∈ plainSymbols) :
    P (ts ++ [.symbol s]) :=
  hP.between h hPlain hP.nil

/-- Braces may stand around a part. -/
theorem braces (h : P ts) : P (enclosed '\x7b' '\x7d' ts) :=
  hP.symbol (by decide) (hP.ended h (by decide))

/-- Rows that all have the property have it together. -/
theorem rows {α : Type} {rows : List (List Token × α)} (h : ∀ row ∈ rows, P row.1) :
    P (rows.flatMap (·.1)) := by
  induction rows with
  | nil => exact hP.nil
  | cons row rows ih =>
    obtain ⟨hFirst, hOthers⟩ := List.forall_mem_cons.mp h
    exact hP.append hFirst (ih hOthers)

/-- Some items with more of them behind. -/
theorem behind {rows : List (List Token)} (hRows : ∀ row ∈ rows, row ≠ [] ∧ P row)
    (hSome : ts ≠ []) (h : P ts) : P (ts ++ behindCommas rows) := by
  induction rows generalizing ts with
  | nil => exact hP.append h hP.nil
  | cons row rows ih =>
    obtain ⟨⟨hRow, hFirst⟩, hOthers⟩ := List.forall_mem_cons.mp hRows
    -- the first item joins those in front of it
    have hJoined := ih hOthers (by simp) (hP.comma hSome hRow h hFirst)
    rw [List.append_assoc] at hJoined
    exact hJoined

/-- A list has the property if its items do, with a comma in front where the grammar allows one. -/
theorem listed {rows : List (List Token)} (h : d.Listed rows ts)
    (hRows : ∀ row ∈ rows, row ≠ [] ∧ P row) : P ts := by
  rcases h with rfl | ⟨hLeading, rfl⟩
  -- an empty list has no commas, and any other one starts with its first item
  · cases rows with
    | nil => exact hP.nil
    | cons row rows =>
      obtain ⟨⟨hSome, hFirst⟩, hOthers⟩ := List.forall_mem_cons.mp hRows
      exact hP.behind hOthers hSome hFirst
  · cases rows with
    | nil => exact hP.nil
    | cons row rows =>
      obtain ⟨⟨hSome, hFirst⟩, hOthers⟩ := List.forall_mem_cons.mp hRows
      exact hP.leading hLeading (hP.behind hOthers hSome hFirst)

end Composed

/-! ## Items of lists -/

theorem DerivesLoc.ne_nil {loc : Loc} (h : DerivesLoc ts loc) : ts ≠ [] := by
  cases h with
  | var hId => cases hId; exact List.cons_ne_nil _ _
  | field => simp

theorem DerivesExpr.ne_nil {level : Level} {e : Expr} (h : DerivesExpr d level ts e) :
    ts ≠ [] := by
  induction h with
  | tighter _ _ ih => exact ih
  | assign | operation | comparison => simp
  | sign | trueLit | falseLit | intLit | strLit => exact List.cons_ne_nil _ _
  | call | parenthesized => simp [enclosed]
  | loc hLoc _ => exact hLoc.ne_nil

theorem DerivesFormal.ne_nil {f : Formal} (h : DerivesFormal ts f) : ts ≠ [] := by
  cases h with
  | intro hType _ => cases hType <;> simp

/-! ## Sentences -/

variable (hP : Composed d P)
include hP

/-- The property holds of an identifier. -/
theorem DerivesIdent.holds {id : Ident} (h : DerivesIdent ts id) : P ts := by
  cases h with
  | name pos hName => exact hP.single (t := .name pos _) hName (by simp) nofun

theorem DerivesLoc.holds {loc : Loc} (h : DerivesLoc ts loc) : P ts := by
  induction h with
  | var hId => exact hId.holds hP
  | field hLeft hId ih => exact hP.field hLeft hId ih (hId.holds hP)

omit hP in
/-- No operator frames anything. -/
theorem Level.operators_plain (level : Level) :
    ∀ op ∈ level.operators, op ∈ plainSymbols := by
  cases level <;> decide

/-- The property holds of every expression of the grammar. -/
theorem DerivesExpr.holds {level : Level} {e : Expr} (h : DerivesExpr d level ts e) : P ts := by
  induction h with
  | tighter _ _ ih => exact ih
  -- tokens on both sides of a plain one: the property is closed under that
  | assign hTarget _ ih => exact hP.between (hTarget.holds hP) (by decide) ih
  | operation hOp _ _ _ ihLeft ihRight =>
    exact hP.between ihLeft (Level.operators_plain _ _ hOp) ihRight
  | comparison hOp _ _ ihLeft ihRight =>
    have hPlain : ∀ op ∈ comparisons, op ∈ plainSymbols := by decide
    exact hP.between ihLeft (hPlain _ hOp) ihRight
  | sign hOp _ ih =>
    have hPlain : ∀ op ∈ signs, op ∈ plainSymbols := by decide
    exact hP.symbol (hPlain _ hOp) ih
  | trueLit pos => exact hP.single (t := .truth pos true) trivial (by simp) nofun
  | falseLit pos => exact hP.single (t := .truth pos false) trivial (by simp) nofun
  | intLit pos hForm _ => exact hP.single hForm (by simp) nofun
  | strLit pos hForm => exact hP.single hForm (by simp) nofun
  | call hCallee _ args hArgs hList ih =>
    have hHolds : P _ := hP.listed hList (List.forall_mem_map.mpr fun arg hArg =>
      ⟨(hArgs arg hArg).ne_nil, ih arg hArg⟩)
    exact hP.append (hCallee.holds hP) (hP.parentheses hHolds)
  | parenthesized _ ih => exact hP.parentheses ih
  | loc hLoc _ => exact hLoc.holds hP

theorem DerivesType.holds {type : TypeRef} (h : DerivesType ts type) : P ts := by
  cases h with
  | boolean | integer | void => exact hP.keyword _ (by decide) hP.nil
  | struct hId => exact hP.keyword _ (by decide) (hId.holds hP)

theorem DerivesVarDecl.holds {decl : VarDecl} (h : DerivesVarDecl ts decl) : P ts := by
  cases h with
  | intro hType hId => exact hP.ended (hP.append (hType.holds hP) (hId.holds hP)) (by decide)

theorem DerivesFormal.holds {f : Formal} (h : DerivesFormal ts f) : P ts := by
  cases h with
  | intro hType hId => exact hP.append (hType.holds hP) (hId.holds hP)

theorem varDecls_hold {decls : List VarDecl} (h : Rows DerivesVarDecl ts decls) : P ts := by
  obtain ⟨rows, hRows, rfl, -⟩ := h
  exact hP.rows fun row hRow => (hRows row hRow).holds hP

/-- A body without its brackets. -/
theorem body_holds {α : Type} {decls : List VarDecl} {stmts : List (List Token × α)}
    (hDecls : Rows DerivesVarDecl us decls) (hStmts : ∀ s ∈ stmts, P s.1) :
    P (us ++ stmts.flatMap (·.1)) :=
  hP.append (varDecls_hold hP hDecls) (hP.rows hStmts)

/-- The property holds of a condition in brackets. -/
theorem condition_holds {cond : Expr} (k : Keyword) (hPlain : ∀ value, k ≠ Token.truthWord value)
    (h : DerivesExpr d .assignment ts cond) : P (.keyword k :: enclosed '(' ')' ts) :=
  hP.keyword k hPlain (hP.parentheses (h.holds hP))

/-- The property holds of every statement of the grammar. -/
theorem DerivesStmt.holds {s : Stmt} (h : DerivesStmt d ts s) : P ts := by
  induction h with
  | ifThen hCond hDecls stmts _ ih | loop hCond hDecls stmts _ ih =>
    exact hP.append (condition_holds hP _ (by decide) hCond) (hP.braces (body_holds hP hDecls ih))
  | ifElse hCond hDecls stmts _ hDecls' stmts' _ ih ih' =>
    have hThen : P (.keyword .ifWord :: enclosed '(' ')' _ ++ enclosed '\x7b' '\x7d' _) :=
      hP.append (condition_holds hP _ (by decide) hCond) (hP.braces (body_holds hP hDecls ih))
    exact hP.append hThen (hP.keyword .elseWord (by decide) (hP.braces (body_holds hP hDecls' ih')))
  | read hTarget =>
    exact hP.keyword _ (by decide)
      (hP.symbol (by decide) (hP.ended (hTarget.holds hP) (by decide)))
  | write hValue =>
    exact hP.keyword _ (by decide)
      (hP.symbol (by decide) (hP.ended (hValue.holds hP) (by decide)))
  | retNone => exact hP.keyword _ (by decide) (hP.symbol (by decide) hP.nil)
  | retSome hValue => exact hP.keyword _ (by decide) (hP.ended (hValue.holds hP) (by decide))
  | call hCallee _ args hArgs hList =>
    have hHolds : P _ := hP.listed hList (List.forall_mem_map.mpr fun arg hArg =>
      ⟨(hArgs arg hArg).ne_nil, (hArgs arg hArg).holds hP⟩)
    exact hP.ended (hP.append (hCallee.holds hP) (hP.parentheses hHolds)) (by decide)
  | increment hTarget | decrement hTarget =>
    exact hP.between (hTarget.holds hP) (by decide) (hP.symbol (by decide) hP.nil)
  | assign hTarget _ hValue =>
    exact hP.between (hTarget.holds hP) (by decide) (hP.ended (hValue.holds hP) (by decide))

/-- The property holds of every declaration of the grammar. -/
theorem DerivesDecl.holds {decl : Decl} (h : DerivesDecl d ts decl) : P ts := by
  cases h with
  | struct hId hFields _ =>
    exact hP.keyword _ (by decide)
      (hP.append (hId.holds hP) (hP.brackets (varDecls_hold hP hFields)))
  | func hResult hId formals hFormals hList hDecls hStmts =>
    -- the statements of the body are rows of their own
    obtain ⟨rows, hRows, rfl, -⟩ := hStmts
    have hHolds : P _ := hP.listed hList (List.forall_mem_map.mpr fun f hf =>
      ⟨(hFormals f hf).ne_nil, (hFormals f hf).holds hP⟩)
    have hBody : P (_ ++ rows.flatMap (·.1)) :=
      body_holds hP hDecls fun row hRow => (hRows row hRow).holds hP
    exact hP.append (hP.append (hP.append (hResult.holds hP) (hId.holds hP))
      (hP.brackets hHolds)) (hP.brackets hBody)
  | var hDecl => exact hDecl.holds hP

/-- What the grammar keeps holds of every sentence. -/
theorem DerivesProgram.holds {p : Program} (h : DerivesProgram d ts p) : P ts := by
  obtain ⟨rows, hRows, rfl, -⟩ := h
  exact hP.rows fun row hRow => (hRows row hRow).holds hP

end Holds

variable {ts us : List Token} {d : Dialect}

/-! ## Properties that look at no brackets and no commas -/

/-- The property is kept where lists are put together, and by a field access. -/
structure Compositional (P : List Token → Prop) : Prop where
  nil : P []
  append : ∀ {ts us}, P ts → P us → P (ts ++ us)
  single : ∀ {t : Token}, t.WellFormed → t ≠ .symbol [':'] →
    (∀ value, t ≠ .keyword (Token.truthWord value)) → P [t]
  field : ∀ {ts us loc id}, DerivesLoc ts loc → DerivesIdent us id → P ts → P us →
    P (ts ++ .symbol [':'] :: us)

/-- What holds of single tokens and is kept by putting tokens behind one another is kept by the
grammar. -/
theorem Compositional.composed {P : List Token → Prop} (hP : Compositional P) : Composed d P := by
  -- any symbol but the colon may stand alone, and so in front of anything
  have hSymbol : ∀ s ∈ Token.punctuation.erase [':'], ∀ {ts}, P ts → P (.symbol s :: ts) := by
    intro s hKnown ts h
    have hNoColon : [':'] ∉ Token.punctuation.erase [':'] := by decide
    refine hP.append (hP.single (t := .symbol s) (List.mem_of_mem_erase hKnown) ?_ nofun) h
    intro hColon
    cases hColon
    exact hNoColon hKnown
  have hEnclosed : ∀ o c, [o] ∈ Token.punctuation.erase [':'] →
      [c] ∈ Token.punctuation.erase [':'] → ∀ {ts}, P ts → P (enclosed o c ts) :=
    fun o c hOpening hClosing _ h =>
      hSymbol [o] hOpening (hP.append h (hSymbol [c] hClosing hP.nil))
  exact
    { nil := hP.nil
      append := hP.append
      single := fun hForm hOther => hP.single hForm (hOther [':'] (by decide))
      field := hP.field
      parentheses := fun h => hEnclosed '(' ')' (by decide) (by decide) h
      brackets := fun h => hEnclosed '[' ']' (by decide) (by decide) h
      comma := fun _ _ h h' => hP.append h (hSymbol [','] (by decide) h')
      leading := fun _ _ h => hSymbol [','] (by decide) h }

/-! ## Tokens of the language -/

/-- Every token is one of the language. -/
abbrev Formed (ts : List Token) : Prop :=
  ∀ t ∈ ts, t.WellFormed

/-- Well-formed tokens stay so when they are put behind one another. -/
theorem formed_compositional : Compositional Formed where
  nil := List.forall_mem_nil _
  append h h' := List.forall_mem_append.mpr ⟨h, h'⟩
  single hForm _ _ := List.forall_mem_singleton.mpr hForm
  field _ _ h h' :=
    have hColon : (Token.symbol [':']).WellFormed := by
      show [':'] ∈ Token.punctuation
      decide
    List.forall_mem_append.mpr ⟨h, List.forall_mem_cons.mpr ⟨hColon, h'⟩⟩

theorem formed_composed (d : Dialect) : Composed d Formed :=
  formed_compositional.composed

/-- A sentence consists of tokens of the language. -/
theorem DerivesProgram.formed {p : Program} (h : DerivesProgram d ts p) : Formed ts :=
  h.holds (formed_composed d)

/-- The token is one of the language, and a truth value where it is written like one. -/
structure Token.Proper (t : Token) : Prop where
  formed : t.WellFormed
  told : ∀ value, t ≠ .keyword (truthWord value)

/-- Proper tokens stay so when they are put behind one another. -/
theorem proper_compositional : Compositional fun ts => ∀ t ∈ ts, t.Proper where
  nil := List.forall_mem_nil _
  append h h' := List.forall_mem_append.mpr ⟨h, h'⟩
  single hForm _ hTold := List.forall_mem_singleton.mpr ⟨hForm, hTold⟩
  field _ _ h h' :=
    have hColon : (Token.symbol [':']).WellFormed := by
      show [':'] ∈ Token.punctuation
      decide
    List.forall_mem_append.mpr ⟨h, List.forall_mem_cons.mpr ⟨⟨hColon, nofun⟩, h'⟩⟩

/-- All tokens of a program are proper. -/
theorem DerivesProgram.proper {p : Program} (h : DerivesProgram d ts p) : ∀ t ∈ ts, t.Proper :=
  h.holds proper_compositional.composed

/-! ## Parts of token lists -/

section Parts

variable {vs : List Token}

/-- What stands inside the brackets stands inside the whole. -/
theorem infix_enclosed {opening closing : Char} (h : vs <:+: ts) :
    vs <:+: enclosed opening closing ts :=
  List.infix_cons (List.infix_append_of_infix_left h)

theorem infix_flatMap {α : Type} {tokens : α → List Token} {xs : List α} {x : α} (hx : x ∈ xs)
    (h : vs <:+: tokens x) : vs <:+: xs.flatMap tokens := by
  rw [List.flatMap_def]
  exact h.trans (List.infix_of_mem_flatten (List.mem_map_of_mem hx))

/-- What stands inside an item stands inside the list. -/
theorem infix_behindCommas {rows : List (List Token)} {row : List Token} (hRow : row ∈ rows)
    (h : vs <:+: row) : vs <:+: behindCommas rows :=
  infix_flatMap hRow (List.infix_cons h)

/-- What stands inside an item stands inside the list. -/
theorem infix_betweenCommas {rows : List (List Token)} {row : List Token} (hRow : row ∈ rows)
    (h : vs <:+: row) : vs <:+: betweenCommas rows := by
  cases hRow with
  | head => exact List.infix_append_of_infix_left h
  | tail _ hRow => exact List.infix_append_of_infix_right (infix_behindCommas hRow h)

/-- Each item is a part of its list. -/
theorem Dialect.Listed.isInfix {rows : List (List Token)} {row : List Token}
    (hList : d.Listed rows ts) (hRow : row ∈ rows) : row <:+: ts := by
  rcases hList with rfl | ⟨-, rfl⟩
  · exact infix_betweenCommas hRow (List.infix_refl row)
  · exact infix_behindCommas hRow (List.infix_refl row)

end Parts

end NameResolution.Grammar
