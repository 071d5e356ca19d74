import Mathlib.Data.List.Chain
import NameResolution.Proofs.Grammar.Comparing
import NameResolution.Proofs.Grammar.Conservation
import NameResolution.Proofs.Grammar.PrintedTokens
import NameResolution.Proofs.Tree.Access

/-!
# Stripped tokens — printed tokens without the parentheses of field accesses

Printing puts every operation in parentheses, and the left side of a field access too. The first
changes nothing, for an operation in parentheses is an operand of any level. But a colon stands
behind a parenthesis then, where the grammar has no place for it. A reader that keeps a stack of
what it has read can take these parentheses away again: what is left is a sentence with the same
tree.

* `Neat` — printed tokens never meet such that two symbols could be read as one.
* `stripStep`, `Strips` — the parentheses in front of colons taken away.
* `DerivesProgram.stripped` — the printed tokens of a tree are stripped to a sentence.
* `DerivesProgram.printed`, `DerivesProgram.marked` — with no field access there is nothing to take
  away, and a field access shows in the printed tokens.
-/

namespace NameResolution.Grammar

variable {t : Token} {ts us vs ws : List Token} {access access' : Bool}

/-! ## Symbols that stand apart -/

/-- The characters that a symbol can go on with. -/
def joints : List Char := ['>', '-', '=', '+']

/-- The token is a symbol that a longer one starts with. -/
def Token.opens : Token → Bool
  | symbol s => punctuation.any fun s' => s.isPrefixOf s' && s != s'
  | keyword _ | truth _ _ | name _ _ | number _ _ | string _ _ => false

/-- The token starts with a character that a symbol can go on with. -/
def Token.joins (t : Token) : Bool :=
  t.chars.head?.any joints.contains

/-- The tokens are not read as one where they stand side by side. -/
def Token.StandsApart (t u : Token) : Prop :=
  t.opens = true → u.joins = false

/-- No symbol of the tokens could be read together with the next token, and none with what may stand
around the tokens. -/
structure Neat (ts : List Token) : Prop where
  first : ∀ t ∈ ts.head?, t.joins = false
  last : ∀ t ∈ ts.getLast?, t.opens = false
  chain : ts.IsChain Token.StandsApart

namespace Neat

theorem nil : Neat [] := ⟨nofun, nofun, .nil⟩

theorem single (hOpens : t.opens = false) (hJoins : t.joins = false) : Neat [t] where
  first u hu := by
    cases hu
    exact hJoins
  last u hu := by
    cases hu
    exact hOpens
  chain := .singleton t

theorem append (h : Neat ts) (h' : Neat us) : Neat (ts ++ us) where
  first t ht := by
    rw [List.head?_append, Option.mem_def, Option.or_eq_some_iff] at ht
    rcases ht with ht | ⟨-, ht⟩
    · exact h.first t ht
    · exact h'.first t ht
  last t ht := by
    rw [List.getLast?_append, Option.mem_def, Option.or_eq_some_iff] at ht
    rcases ht with ht | ⟨-, ht⟩
    · exact h'.last t ht
    · exact h.last t ht
  chain := h.chain.append h'.chain fun _ _ u hu _ => h'.first u hu

/-- Any symbol can stand between others. -/
theorem between (h : Neat ts) (s : List Char) (h' : Neat us) (hSome : ts ≠ [])
    (hSome' : us ≠ []) : Neat (ts ++ .symbol s :: us) where
  first t ht := by
    obtain ⟨u, ts, rfl⟩ := List.exists_cons_of_ne_nil hSome
    exact h.first t ht
  last t ht := by
    obtain ⟨u, us, rfl⟩ := List.exists_cons_of_ne_nil hSome'
    refine h'.last t ?_
    rwa [List.getLast?_append_cons, List.getLast?_cons_cons] at ht
  chain := by
    have hBehind : (.symbol s :: us).IsChain Token.StandsApart :=
      List.isChain_cons.mpr ⟨fun u hu _ => h'.first u hu, h'.chain⟩
    refine h.chain.append hBehind ?_
    -- in front of the symbol stands the end of the first list, and that opens nothing
    intro t ht u _ hOpens
    rw [h.last t ht] at hOpens
    cases hOpens

end Neat

/-- Only symbols start with the characters that symbols go on with. -/
theorem Token.WellFormed.not_joins (h : t.WellFormed) (hShape : t.shape ≠ .mark) :
    t.joins = false := by
  obtain ⟨c, s, hChars, hFirst⟩ := h.shape
  have hMarks : joints.all (fun c => shapeOf c == .mark) = true := by decide
  rw [joins, hChars, List.head?_cons, Option.any_some, ← Bool.not_eq_true, List.contains_iff_mem]
  intro hMem
  exact hShape (hFirst.symm.trans (eq_of_beq (List.all_eq_true.mp hMarks c hMem)))

/-! ## Parentheses in front of colons -/

/-- What has been read, the last token first, with one more token. A colon takes away the last
parentheses if it stands behind them. -/
def stripStep (read : List Token) (t : Token) : List Token :=
  if t = .symbol [':'] ∧ read.head? = some (.symbol [')']) then
    t :: read.tail.erase (.symbol ['('])
  else t :: read

/-- A colon behind a parenthesis. -/
def accessMark : List Token := [.symbol [')'], .symbol [':']]

/-- The tokens `ts` are `us` with parentheses in front of each colon; `access` tells whether there
is one. -/
structure Strips (access : Bool) (ts us : List Token) : Prop where
  run : ∀ read, ts.foldl stripStep read = us.reverse ++ read
  shared : ∀ t ∈ ts, t ∈ us ∨ t = .symbol ['('] ∨ t = .symbol [')']
  same : access = false → us = ts
  marked : access = true → accessMark <:+: ts

namespace Strips

theorem nil : Strips false [] [] where
  run _ := rfl
  shared := List.forall_mem_nil _
  same _ := rfl
  marked := nofun

theorem single (hColon : t ≠ .symbol [':']) : Strips false [t] [t] where
  run read := by
    rw [List.foldl_cons, stripStep, if_neg fun h => hColon h.1]
    rfl
  shared := List.forall_mem_singleton.mpr (.inl (List.mem_singleton_self t))
  same _ := rfl
  marked := nofun

theorem append (h : Strips access ts us) (h' : Strips access' vs ws) :
    Strips (access || access') (ts ++ vs) (us ++ ws) where
  run read := by
    rw [List.foldl_append, h.run, h'.run, List.reverse_append, List.append_assoc]
  shared := by
    -- what is printed in either part is restored in that part, or it is a bracket of an access
    refine List.forall_mem_append.mpr ⟨fun t ht => ?_, fun t ht => ?_⟩
    · exact (h.shared t ht).imp_left (List.mem_append_left ws)
    · exact (h'.shared t ht).imp_left (List.mem_append_right us)
  same hNone := by
    obtain ⟨hFirst, hSecond⟩ := Bool.or_eq_false_iff.mp hNone
    rw [h.same hFirst, h'.same hSecond]
  marked hSome := by
    -- the mark of an access lies in one of the two parts
    rcases (Bool.or_eq_true _ _).mp hSome with hFirst | hSecond
    · exact List.infix_append_of_infix_left (h.marked hFirst)
    · exact List.infix_append_of_infix_right (h'.marked hSecond)

/-- The left side of a field access. Names and colons are all that it is stripped to, so the last
opening parenthesis is its own. -/
theorem field (h : Strips access ts us) (hNone : .symbol ['('] ∉ us) :
    Strips true (enclosed '(' ')' ts ++ [.symbol [':']]) (us ++ [.symbol [':']]) where
  run read := by
    -- the opening bracket is kept until the colon comes; then the one that was opened last is taken
    -- back
    have hOpening : stripStep read (.symbol ['(']) = .symbol ['('] :: read :=
      if_neg fun h => by cases h.1
    have hClosing : ∀ read, stripStep read (.symbol [')']) = .symbol [')'] :: read :=
      fun read => if_neg fun h => by cases h.1
    have hColon : ∀ read, stripStep (.symbol [')'] :: read) (.symbol [':']) =
        .symbol [':'] :: read.erase (.symbol ['(']) := fun read => if_pos ⟨rfl, rfl⟩
    simp only [enclosed, List.foldl_append, List.foldl_cons, List.foldl_nil, hOpening, h.run,
      hClosing, hColon]
    -- the text in between has no opening bracket, so the one that is erased is this one
    rw [List.erase_append_right _ (by rwa [List.mem_reverse]), List.erase_cons_head,
      List.reverse_append]
    rfl
  shared := by
    have hInner : ∀ t ∈ ts, t ∈ us ++ [.symbol [':']] ∨ t = .symbol ['('] ∨ t = .symbol [')'] :=
      fun t ht => (h.shared t ht).imp_left (List.mem_append_left _)
    intro t ht
    rw [enclosed, List.mem_append, List.mem_cons, List.mem_append, List.mem_singleton,
      List.mem_singleton] at ht
    rcases ht with (rfl | ht | rfl) | rfl
    · exact .inr (.inl rfl)
    · exact hInner t ht
    · exact .inr (.inr rfl)
    · exact .inl (List.mem_append_right _ (List.mem_singleton_self _))
  same := nofun
  marked _ := ⟨.symbol ['('] :: ts, [], by simp [enclosed, accessMark]⟩

end Strips

/-! ## Printed tokens -/

/-- Neat tokens that are stripped to `us`. -/
structure Prints (access : Bool) (ts us : List Token) : Prop extends Strips access ts us where
  neat : Neat ts

namespace Prints

theorem nil : Prints false [] [] := ⟨.nil, .nil⟩

theorem append (h : Prints access ts us) (h' : Prints access' vs ws) :
    Prints (access || access') (ts ++ vs) (us ++ ws) :=
  ⟨h.toStrips.append h'.toStrips, h.neat.append h'.neat⟩

theorem word (hForm : t.WellFormed) (hShape : (t.shape != .mark) = true) :
    Prints false [t] [t] := by
  replace hShape := bne_iff_ne.mp hShape
  refine ⟨.single ?_, .single ?_ (hForm.not_joins hShape)⟩
  · rintro rfl
    exact hShape rfl
  · cases t with
    | symbol s => exact absurd rfl hShape
    | keyword | truth | name | number | string => rfl

/-- A bracket, a comma or a point. -/
theorem separator {s : List Char} (hSeparator : s ∈ separators) :
    Prints false [.symbol s] [.symbol s] := by
  have hAlone : ∀ s ∈ separators, s ≠ [':'] ∧ (Token.symbol s).opens = false ∧
      (Token.symbol s).joins = false := by
    decide
  obtain ⟨hColon, hOpens, hJoins⟩ := hAlone s hSeparator
  exact ⟨.single fun h => hColon (Token.symbol.inj h), .single hOpens hJoins⟩

theorem cons (h : Prints false [t] [t]) (h' : Prints access ts us) :
    Prints access (t :: ts) (t :: us) := by
  have hBoth := h.append h'
  rwa [Bool.false_or] at hBoth

theorem concat (h : Prints access ts us) (h' : Prints false [t] [t]) :
    Prints access (ts ++ [t]) (us ++ [t]) := by
  have hBoth := h.append h'
  rwa [Bool.or_false] at hBoth

theorem reserved (k : Keyword) : Prints false [.keyword k] [.keyword k] :=
  word trivial rfl

theorem keyword (k : Keyword) (h : Prints access ts us) :
    Prints access (.keyword k :: ts) (.keyword k :: us) :=
  (reserved k).cons h

theorem enclosed (h : Prints access ts us) (opening closing : Char)
    (hOpening : [opening] ∈ separators) (hClosing : [closing] ∈ separators) :
    Prints access (enclosed opening closing ts) (enclosed opening closing us) :=
  (separator hOpening).cons (h.concat (separator hClosing))

theorem parenthesized (h : Prints access ts us) :
    Prints access (Grammar.enclosed '(' ')' ts) (Grammar.enclosed '(' ')' us) :=
  h.enclosed '(' ')' (by decide) (by decide)

/-- An operator between two operands, whatever symbol it is. -/
theorem between (h : Prints access ts us) {s : List Char} (hColon : s ≠ [':'])
    (h' : Prints access' vs ws) (hSome : ts ≠ []) (hSome' : vs ≠ []) :
    Prints (access || access') (ts ++ .symbol s :: vs) (us ++ .symbol s :: ws) := by
  have hSymbol : Strips false [.symbol s] [.symbol s] :=
    .single fun h => hColon (Token.symbol.inj h)
  have hBehind : Strips access' (.symbol s :: vs) (.symbol s :: ws) := by
    have hBoth := hSymbol.append h'.toStrips
    rwa [Bool.false_or] at hBoth
  exact ⟨h.toStrips.append hBehind, h.neat.between s h'.neat hSome hSome'⟩

/-- An operation in parentheses. -/
theorem operation (h : Prints access ts us) {s : List Char} (hColon : s ≠ [':'])
    (h' : Prints access' vs ws) :
    Prints (access || access') (Grammar.enclosed '(' ')' (ts ++ .symbol s :: vs))
      (Grammar.enclosed '(' ')' (us ++ .symbol s :: ws)) := by
  have hAll := ((separator (s := ['(']) (by decide)).cons h).between hColon
    (h'.concat (separator (s := [')']) (by decide))) (List.cons_ne_nil _ _) (by simp)
  simpa [Grammar.enclosed] using hAll

end Prints

/-! ### Rows -/

section Rows

variable {α : Type} {tokens : α → List Token} {hasAccess : α → Bool}
  {derives : List Token → α → Prop} {xs : List α} {rows : List (List Token × α)}

/-- The value is derived from what its printed tokens are stripped to. -/
def Restores (derives : List Token → α → Prop) (tokens : α → List Token) (hasAccess : α → Bool)
    (x : α) : Prop :=
  ∃ us, Prints (hasAccess x) (tokens x) us ∧ derives us x

theorem restored_rows (h : ∀ x ∈ xs, Restores derives tokens hasAccess x) :
    ∃ rows : List (List Token × α), rows.map (·.2) = xs ∧
      (∀ row ∈ rows, Prints (hasAccess row.2) (tokens row.2) row.1) ∧
      ∀ row ∈ rows, derives row.1 row.2 := by
  induction xs with
  | nil => exact ⟨[], rfl, List.forall_mem_nil _, List.forall_mem_nil _⟩
  | cons x xs ih =>
    obtain ⟨⟨us, hPrints, hDerives⟩, hOthers⟩ := List.forall_mem_cons.mp h
    obtain ⟨rows, rfl, hRows, hRowsDerive⟩ := ih hOthers
    exact ⟨(us, x) :: rows, rfl, List.forall_mem_cons.mpr ⟨hPrints, hRows⟩,
      List.forall_mem_cons.mpr ⟨hDerives, hRowsDerive⟩⟩

section Printed

variable (h : ∀ row ∈ rows, Prints (hasAccess row.2) (tokens row.2) row.1)
include h

theorem Prints.flatMap :
    Prints ((rows.map (·.2)).any hasAccess) ((rows.map (·.2)).flatMap tokens)
      (rows.flatMap (·.1)) := by
  induction rows with
  | nil => exact .nil
  | cons row rows ih =>
    obtain ⟨hFirst, hOthers⟩ := List.forall_mem_cons.mp h
    exact hFirst.append (ih hOthers)

theorem Prints.behindCommas :
    Prints ((rows.map (·.2)).any hasAccess) (behindCommas ((rows.map (·.2)).map tokens))
      (behindCommas (rows.map (·.1))) := by
  induction rows with
  | nil => exact .nil
  | cons row rows ih =>
    obtain ⟨hFirst, hOthers⟩ := List.forall_mem_cons.mp h
    have hComma : Prints false [.symbol [',']] [.symbol [',']] := .separator (by decide)
    exact (hComma.cons hFirst).append (ih hOthers)

theorem Prints.betweenCommas :
    Prints ((rows.map (·.2)).any hasAccess) (betweenCommas ((rows.map (·.2)).map tokens))
      (betweenCommas (rows.map (·.1))) := by
  cases rows with
  | nil => exact .nil
  | cons row rows =>
    obtain ⟨hFirst, hOthers⟩ := List.forall_mem_cons.mp h
    exact hFirst.append (Prints.behindCommas hOthers)

end Printed

end Rows

/-! ## Expressions -/

theorem DerivesIdent.prints {id : Ident} (h : DerivesIdent ts id) :
    Prints false [id.token] [id.token] := by
  cases h with
  | @name pos word hName => exact .word (t := .name pos word) hName rfl

theorem DerivesLoc.stripped {loc : Loc} (h : DerivesLoc ts loc) :
    ∃ us, Prints loc.hasAccess loc.tokens us ∧ DerivesLoc us loc ∧ .symbol ['('] ∉ us := by
  induction h with
  | var hId => exact ⟨_, hId.prints, .var hId.printed, by simp [Ident.token]⟩
  | @field _ _ left id _ hId ih =>
    -- inside the brackets the location has been stripped already; only the last field is new
    obtain ⟨us, hPrints, hDerives, hNone⟩ := ih
    refine ⟨us ++ .symbol [':'] :: [id.token], ⟨?_, ?_⟩, .field hDerives hId.printed, ?_⟩
    · have hField := (hPrints.toStrips.field hNone).append hId.prints.toStrips
      rw [List.append_assoc, List.append_assoc] at hField
      exact hField
    · exact hPrints.parenthesized.neat.between [':'] hId.prints.neat (List.cons_ne_nil _ _)
        (by simp)
    · simp [Ident.token, hNone]

/-- The arguments of a call. -/
theorem arguments_stripped {args : List (List Token × Expr)}
    (h : ∀ arg ∈ args, Restores (DerivesExpr .ordered .primary) Expr.tokens Expr.hasAccess arg.2) :
    ∃ rows : List (List Token × Expr), rows.map (·.2) = args.map (·.2) ∧
      (∀ row ∈ rows, DerivesExpr .ordered .assignment row.1 row.2) ∧
      Prints (Expr.anyAccess (args.map (·.2)))
        (enclosed '(' ')' (betweenCommas (Expr.tokensAll (args.map (·.2)))))
        (enclosed '(' ')' (betweenCommas (rows.map (·.1)))) := by
  obtain ⟨rows, hValues, hPrints, hDerives⟩ := restored_rows (List.forall_mem_map.mpr h)
  have hList := Prints.betweenCommas hPrints
  rw [hValues, ← Expr.anyAccess_eq_any, ← Expr.tokensAll_eq_map] at hList
  exact ⟨rows, hValues, fun row hRow => (hDerives row hRow).lift _, hList.parenthesized⟩

/-- The printed tokens of an expression are stripped to an expression of the tightest level. -/
theorem DerivesExpr.stripped {level : Level} {e : Expr} (h : DerivesExpr .ordered level ts e) :
    Restores (DerivesExpr .ordered .primary) Expr.tokens Expr.hasAccess e := by
  induction h with
  | tighter _ _ ih => exact ih
  | assign hTarget _ ih =>
    obtain ⟨us, hPrints, hDerives, -⟩ := hTarget.stripped
    obtain ⟨vs, hPrints', hDerives'⟩ := ih
    exact ⟨_, hPrints.operation (by decide) hPrints',
      .parenthesized (.assign hDerives (hDerives'.lift _))⟩
  | @operation level _ _ _ _ _ _ hOp hNext _ _ ihLeft ihRight =>
    obtain ⟨us, hPrints, hDerives⟩ := ihLeft
    obtain ⟨vs, hPrints', hDerives'⟩ := ihRight
    have hColon : ∀ op ∈ level.operators, op ≠ [':'] := by
      cases level <;> decide
    -- the parentheses turn an operation of any level into a primary expression
    have hOperation := (DerivesExpr.operation hOp hNext (hDerives.lift _) (hDerives'.lift _)).loosen
    refine ⟨_, ?_, .parenthesized hOperation⟩
    rw [Expr.tokens, String.toList_ofList]
    exact hPrints.operation (hColon _ hOp) hPrints'
  | comparison hOp _ _ ihLeft ihRight =>
    obtain ⟨us, hPrints, hDerives⟩ := ihLeft
    obtain ⟨vs, hPrints', hDerives'⟩ := ihRight
    have hColon : ∀ op ∈ comparisons, op ≠ [':'] := by decide
    have hComparison := (DerivesExpr.comparison hOp (hDerives.lift _) (hDerives'.lift _)).loosen
    refine ⟨_, ?_, .parenthesized hComparison⟩
    rw [Expr.tokens, String.toList_ofList]
    exact hPrints.operation (hColon _ hOp) hPrints'
  | sign hOp _ ih =>
    obtain ⟨us, hPrints, hDerives⟩ := ih
    have hColon : ∀ op ∈ signs, op ≠ [':'] := by decide
    refine ⟨_, ?_, .parenthesized (DerivesExpr.sign hOp (hDerives.lift _)).loosen⟩
    rw [Expr.tokens, String.toList_ofList]
    exact Prints.nil.operation (hColon _ hOp) hPrints
  | trueLit pos => exact ⟨_, .word (t := .truth pos true) trivial rfl, .trueLit pos⟩
  | falseLit pos => exact ⟨_, .word (t := .truth pos false) trivial rfl, .falseLit pos⟩
  | intLit pos _ hDigits =>
    have hPrinted := DerivesExpr.printed_number pos hDigits
    have hForm := hPrinted.holds (formed_composed _)
    exact ⟨_, .word (hForm _ (List.mem_singleton_self _)) rfl, hPrinted⟩
  | strLit pos hForm => exact ⟨_, .word hForm rfl, .strLit pos hForm⟩
  | call hCallee hOperand args _ _ ih =>
    obtain ⟨rows, hValues, hDerives, hPrints⟩ := arguments_stripped ih
    rw [← hValues]
    refine ⟨_, ?_, .call hCallee.printed hOperand rows hDerives (.inl rfl)⟩
    rw [hValues]
    exact hCallee.prints.append hPrints
  | parenthesized _ ih => exact ih
  | loc hLoc hOperand =>
    obtain ⟨us, hPrints, hDerives, -⟩ := hLoc.stripped
    exact ⟨us, hPrints, .loc hDerives hOperand⟩

/-! ## Declarations of variables -/

theorem DerivesType.stripped {type : TypeRef} (h : DerivesType ts type) :
    Prints false type.tokens type.tokens ∧ DerivesType type.tokens type := by
  cases h with
  | boolean => exact ⟨.reserved .boolean, .boolean⟩
  | integer => exact ⟨.reserved .integer, .integer⟩
  | void => exact ⟨.reserved .void, .void⟩
  | struct hId => exact ⟨.keyword .struct hId.prints, .struct hId.printed⟩

theorem DerivesVarDecl.stripped {decl : VarDecl} (h : DerivesVarDecl ts decl) :
    Restores DerivesVarDecl VarDecl.tokens (fun _ => false) decl := by
  cases h with
  | intro hType hId =>
    obtain ⟨hPrints, hDerives⟩ := hType.stripped
    exact ⟨_, (hPrints.append hId.prints).append (.separator (by decide)),
      .intro hDerives hId.printed⟩

theorem DerivesFormal.stripped {f : Formal} (h : DerivesFormal ts f) :
    Restores DerivesFormal Formal.tokens (fun _ => false) f := by
  cases h with
  | intro hType hId =>
    obtain ⟨hPrints, hDerives⟩ := hType.stripped
    exact ⟨_, hPrints.append hId.prints, .intro hDerives hId.printed⟩

theorem any_false {α : Type} (xs : List α) : (xs.any fun _ => false) = false :=
  List.any_eq_false.mpr fun _ _ => Bool.false_ne_true

theorem varDecls_stripped {decls : List VarDecl} (h : Rows DerivesVarDecl ts decls) :
    ∃ us, Prints false (decls.flatMap VarDecl.tokens) us ∧ Rows DerivesVarDecl us decls := by
  obtain ⟨rows, hRows, -, rfl⟩ := h
  obtain ⟨rows', hValues, hPrints, hDerives⟩ :=
    restored_rows (List.forall_mem_map.mpr fun row hRow => (hRows row hRow).stripped)
  have hAll : Prints ((rows'.map (·.2)).any fun _ => false)
      ((rows'.map (·.2)).flatMap VarDecl.tokens) (rows'.flatMap (·.1)) := .flatMap hPrints
  rw [hValues, any_false] at hAll
  exact ⟨_, hAll, rows', hDerives, rfl, hValues.symm⟩

/-! ## Statements -/

theorem condition_stripped {cond : Expr} (k : Keyword)
    (h : DerivesExpr .ordered .assignment ts cond) :
    ∃ us, Prints cond.hasAccess (.keyword k :: enclosed '(' ')' cond.tokens)
        (.keyword k :: enclosed '(' ')' us) ∧ DerivesExpr .ordered .assignment us cond := by
  obtain ⟨us, hPrints, hDerives⟩ := h.stripped
  exact ⟨us, .keyword k hPrints.parenthesized, hDerives.lift _⟩

/-- The declarations and the statements of a body. -/
theorem body_stripped {decls : List VarDecl} {stmts : List (List Token × Stmt)}
    (opening closing : Char) (hOpening : [opening] ∈ separators) (hClosing : [closing] ∈ separators)
    (hDecls : Rows DerivesVarDecl ts decls)
    (hStmts : ∀ s ∈ stmts, Restores (DerivesStmt .ordered) Stmt.tokens Stmt.hasAccess s.2) :
    ∃ (us : List Token) (rows : List (List Token × Stmt)), Rows DerivesVarDecl us decls ∧
      rows.map (·.2) = stmts.map (·.2) ∧ (∀ row ∈ rows, DerivesStmt .ordered row.1 row.2) ∧
      Prints (Stmt.anyAccess (stmts.map (·.2)))
        (enclosed opening closing
          (decls.flatMap VarDecl.tokens ++ Stmt.tokensAll (stmts.map (·.2))))
        (enclosed opening closing (us ++ rows.flatMap (·.1))) := by
  -- declarations have no access, so only the statements may lose brackets
  obtain ⟨us, hPrints, hDerives⟩ := varDecls_stripped hDecls
  obtain ⟨rows, hValues, hRows, hRowsDerive⟩ := restored_rows (List.forall_mem_map.mpr hStmts)
  have hAll := Prints.flatMap hRows
  rw [hValues, ← Stmt.anyAccess_eq_any, ← Stmt.tokensAll_eq_flatMap] at hAll
  have hBody := hPrints.append hAll
  rw [Bool.false_or] at hBody
  exact ⟨us, rows, hDerives, hValues, hRowsDerive, hBody.enclosed opening closing hOpening hClosing⟩

theorem DerivesStmt.stripped {s : Stmt} (h : DerivesStmt .ordered ts s) :
    Restores (DerivesStmt .ordered) Stmt.tokens Stmt.hasAccess s := by
  have hPoint : Prints false [.symbol ['.']] [.symbol ['.']] := .separator (by decide)
  induction h with
  | ifThen hCond hDecls stmts _ ih =>
    obtain ⟨us, hPrints, hDerives⟩ := condition_stripped .ifWord hCond
    obtain ⟨vs, rows, hDecls', hValues, hRows, hBody⟩ :=
      body_stripped '\x7b' '\x7d' (by decide) (by decide) hDecls ih
    rw [← hValues] at hBody ⊢
    exact ⟨_, hPrints.append hBody, .ifThen hDerives hDecls' rows hRows⟩
  | ifElse hCond hDecls stmts _ hDecls' stmts' _ ih ih' =>
    obtain ⟨us, hPrints, hDerives⟩ := condition_stripped .ifWord hCond
    obtain ⟨vs, rows, hThenDecls, hValues, hRows, hBody⟩ :=
      body_stripped '\x7b' '\x7d' (by decide) (by decide) hDecls ih
    obtain ⟨vs', rows', hElseDecls, hValues', hRows', hBody'⟩ :=
      body_stripped '\x7b' '\x7d' (by decide) (by decide) hDecls' ih'
    rw [← hValues] at hBody ⊢
    rw [← hValues'] at hBody' ⊢
    exact ⟨_, (hPrints.append hBody).append (.keyword .elseWord hBody'),
      .ifElse hDerives hThenDecls rows hRows hElseDecls rows' hRows'⟩
  | loop hCond hDecls stmts _ ih =>
    obtain ⟨us, hPrints, hDerives⟩ := condition_stripped .whileWord hCond
    obtain ⟨vs, rows, hDecls', hValues, hRows, hBody⟩ :=
      body_stripped '\x7b' '\x7d' (by decide) (by decide) hDecls ih
    rw [← hValues] at hBody ⊢
    exact ⟨_, hPrints.append hBody, .loop hDerives hDecls' rows hRows⟩
  | @read _ target hTarget =>
    obtain ⟨us, hPrints, hDerives, -⟩ := hTarget.stripped
    have hAll := (Prints.reserved .input).between (s := ['-', '>']) (by decide)
      (hPrints.concat hPoint) (List.cons_ne_nil _ _) (by simp)
    exact ⟨_, hAll, .read hDerives⟩
  -- the printer puts parentheses around every value that is written
  | write hValue =>
    obtain ⟨us, hPrints, hDerives⟩ := hValue.stripped
    have hAll := (Prints.reserved .disp).between (s := ['<', '-']) (by decide)
      (hPrints.parenthesized.concat hPoint) (List.cons_ne_nil _ _) (by simp)
    exact ⟨_, hAll, .write (.lift (.parenthesized (hDerives.lift _)) _)⟩
  | retNone =>
    exact ⟨_, .keyword .returnWord hPoint, .retNone⟩
  | retSome hValue =>
    obtain ⟨us, hPrints, hDerives⟩ := hValue.stripped
    exact ⟨_, .keyword .returnWord (hPrints.concat hPoint), .retSome (hDerives.lift _)⟩
  | call hCallee hOpening args hArgs _ =>
    obtain ⟨rows, hValues, hDerives, hPrints⟩ :=
      arguments_stripped fun arg hArg => (hArgs arg hArg).stripped
    rw [← hValues] at hPrints ⊢
    exact ⟨_, (hCallee.prints.append hPrints).concat hPoint,
      .call hCallee.printed hOpening rows hDerives (.inl rfl)⟩
  | @increment _ target hTarget =>
    obtain ⟨us, hPrints, hDerives, -⟩ := hTarget.stripped
    have hAll := hPrints.between (s := ['+', '+']) (by decide) hPoint target.tokens_ne_nil
      (List.cons_ne_nil _ _)
    rw [Bool.or_false] at hAll
    exact ⟨_, hAll, .increment hDerives⟩
  | @decrement _ target hTarget =>
    obtain ⟨us, hPrints, hDerives, -⟩ := hTarget.stripped
    have hAll := hPrints.between (s := ['-', '-']) (by decide) hPoint target.tokens_ne_nil
      (List.cons_ne_nil _ _)
    rw [Bool.or_false] at hAll
    exact ⟨_, hAll, .decrement hDerives⟩
  | @assign _ _ target value hTarget hOpening hValue =>
    obtain ⟨us, hPrints, hDerives, -⟩ := hTarget.stripped
    obtain ⟨vs, hPrints', hDerives'⟩ := hValue.stripped
    have hAll := hPrints.between (s := ['=']) (by decide) (hPrints'.concat hPoint)
      target.tokens_ne_nil (by simp)
    exact ⟨_, hAll, .assign hDerives hOpening (hDerives'.lift _)⟩

/-! ## Programs -/

theorem DerivesDecl.stripped {decl : Decl} (h : DerivesDecl .ordered ts decl) :
    Restores (DerivesDecl .ordered) Decl.tokens Decl.hasAccess decl := by
  cases h with
  | struct hId hFields hSome =>
    obtain ⟨us, hPrints, hDerives⟩ := varDecls_stripped hFields
    have hBody := hPrints.enclosed '[' ']' (by decide) (by decide)
    refine ⟨_, ?_, .struct hId.printed hDerives hSome⟩
    rw [Decl.tokens, List.flatMap_map]
    exact .keyword .struct (hId.prints.append hBody)
  | func hResult hId formals hFormals _ hDecls hStmts =>
    obtain ⟨hPrints, hDerives⟩ := hResult.stripped
    obtain ⟨stmts, hRows, -, rfl⟩ := hStmts
    obtain ⟨vs, rows, hDecls', hValues, hRowsDerive, hBody⟩ :=
      body_stripped '[' ']' (by decide) (by decide) hDecls
        fun s hs => (hRows s hs).stripped
    obtain ⟨items, hItems, hItemsPrint, hItemsDerive⟩ :=
      restored_rows (List.forall_mem_map.mpr fun f hf => (hFormals f hf).stripped)
    have hList : Prints ((items.map (·.2)).any fun _ => false)
        (betweenCommas ((items.map (·.2)).map Formal.tokens)) (betweenCommas (items.map (·.1))) :=
      .betweenCommas hItemsPrint
    -- formals have no access either, so the list of them is the same
    rw [hItems, any_false] at hList
    have hFormalList := hList.enclosed '[' ']' (by decide) (by decide)
    rw [← hValues] at hBody ⊢
    rw [← hItems] at hFormalList ⊢
    exact ⟨_, ((hPrints.append hId.prints).append hFormalList).append hBody,
      .func hDerives hId.printed items hItemsDerive (.inl rfl) hDecls'
        ⟨rows, hRowsDerive, rfl, rfl⟩⟩
  | var hDecl =>
    obtain ⟨us, hPrints, hDerives⟩ := hDecl.stripped
    exact ⟨us, hPrints, .var hDerives⟩

/-- The printed tokens of a program are stripped to a sentence with the same tree. -/
theorem DerivesProgram.stripped {p : Program} (h : DerivesProgram .ordered ts p) :
    Restores (DerivesProgram .ordered) Program.tokens Program.hasAccess p := by
  obtain ⟨rows, hRows, -, hDecls⟩ := h
  obtain ⟨rows', hValues, hPrints, hDerives⟩ :=
    restored_rows (List.forall_mem_map.mpr fun row hRow => (hRows row hRow).stripped)
  have hAll := Prints.flatMap hPrints
  rw [hValues, ← hDecls] at hAll
  exact ⟨_, hAll, rows', hDerives, rfl, hDecls.trans hValues.symm⟩

/-- Without field accesses, the printed tokens are a sentence with the same tree. -/
theorem DerivesProgram.printed {p : Program} (h : DerivesProgram .ordered ts p)
    (hNone : p.hasAccess = false) : DerivesProgram .ordered p.tokens p := by
  obtain ⟨us, hPrints, hDerives⟩ := h.stripped
  rw [hPrints.same hNone] at hDerives
  exact hDerives

/-- A field access shows in the printed tokens. -/
theorem DerivesProgram.marked {p : Program} (h : DerivesProgram .ordered ts p)
    (hAccess : p.hasAccess = true) : accessMark <:+: p.tokens := by
  obtain ⟨us, hPrints, -⟩ := h.stripped
  exact hPrints.marked hAccess

end NameResolution.Grammar
