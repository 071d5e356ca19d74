import NameResolution.Proofs.Grammar.Accepting
import NameResolution.Proofs.Grammar.PrintedTokens
import NameResolution.Proofs.Grammar.Spelling
import NameResolution.Tree.Printer

/-!
# Printed expressions — a printed expression spells its tokens

Where the printer puts no space, two tokens stand side by side that cannot be taken for others: a
word and a symbol, a parenthesis and anything. Only a minus sign could be doubled, but the operand
behind a sign starts with no sign when it is printed.

* `Spells.parenthesized`, `Spells.operation`, `spells_list` — how texts are put together.
* `DerivesLoc.spells`, `DerivesExpr.spells` — locations and expressions.
-/

namespace NameResolution

/-- Without its symbol an identifier is its name. -/
theorem Ident.print_plain (id : Ident) : id.print false = id.name := by
  rw [Ident.print]
  cases id.symbol? with
  | none => rfl
  | some symbol => rfl

theorem Expr.printAll_eq_map (annotate : Bool) (es : List Expr) :
    Expr.printAll annotate es = es.map (Expr.print annotate) := by
  induction es with
  | nil => rw [Expr.printAll, List.map_nil]
  | cons e es ih => rw [Expr.printAll, ih, List.map_cons]

namespace Grammar

variable {ts us : List Token} {s s' : List Char} {follow : List Char → Prop}

/-! ## Pieces in brackets, and operators between spaces -/

/-- A text between two brackets, if a bracket may follow it. -/
theorem Spells.bracketed {opening closing : Char} (h : Spells follow s ts)
    (hClosing : ∀ rest, follow (closing :: rest))
    (hOpen : Spells Anything [opening] [.symbol [opening]])
    (hClose : Spells Anything [closing] [.symbol [closing]]) :
    Spells Anything (opening :: (s ++ [closing])) (enclosed opening closing ts) :=
  hOpen.before (h.append hClose fun rest _ => hClosing rest)

/-- A text in parentheses. -/
theorem Spells.parenthesized (h : Spells Apart s ts) :
    Spells Anything ('(' :: (s ++ [')'])) (enclosed '(' ')' ts) :=
  h.bracketed (fun _ => apart_cons (by decide)) (.symbol (by decide))
    (.symbol (by decide))

/-- An operator or a sign of assignment between two operands. -/
theorem Spells.operation {op : List Char} (h : Spells Apart s ts) (hKnown : op ∈ Token.punctuation)
    (h' : Spells follow s' us) :
    Spells follow (s ++ ' ' :: (op ++ ' ' :: s')) (ts ++ .symbol op :: us) := by
  have hRight : Spells follow (op ++ ' ' :: s') (.symbol op :: us) :=
    (Spells.symbol_spaced hKnown).append (h'.blank (c := ' ') (by decide)) fun _ _ => rfl
  exact h.parted (hRight.blank (by decide)) (by decide)

/-- The full stop alone. -/
theorem spells_point : Spells Anything ['.'] [.symbol ['.']] :=
  .symbol (by decide)

/-- A text with a full stop behind it. -/
theorem Spells.pointed (h : Spells Apart s ts) :
    Spells Anything (s ++ ['.']) (ts ++ [.symbol ['.']]) :=
  h.parted spells_point (by decide)

/-- A keyword in front of a space. -/
theorem Spells.behind_keyword (k : Keyword) (h : Spells follow s ts) :
    Spells follow (k.chars ++ ' ' :: s) (.keyword k :: ts) :=
  (spells_keyword k).parted (h.blank (c := ' ') (by decide)) (by decide)

/-! ## Names and lists -/

/-- A name is spelled by its word, if no word goes on with it. -/
theorem DerivesIdent.spells {id : Ident} (h : DerivesIdent ts id) :
    Spells Apart id.name.toList [id.token] := by
  cases h with
  | name pos hName => exact spells_name pos hName

/-- A location is spelled by what is printed for it, parentheses included. -/
theorem DerivesLoc.spells {loc : Loc} (h : DerivesLoc ts loc) :
    Spells Apart (loc.print false).toList loc.tokens := by
  induction h with
  | var hId =>
    rw [Loc.print, Ident.print_plain]
    exact hId.spells
  | @field _ _ left id _ hId ih =>
    have hText : (Loc.print false (.field left id)).toList =
        '(' :: ((left.print false).toList ++ [')']) ++ [':'] ++ id.name.toList := by
      rw [Loc.print, Ident.print_plain]
      simp
    have hTokens : (Loc.field left id).tokens =
        enclosed '(' ')' left.tokens ++ [.symbol [':']] ++ [id.token] := by
      rw [Loc.tokens, List.append_assoc]
      rfl
    -- the left side is in parentheses, so the colon stands behind one of them
    have hColon : Spells Anything [':'] [.symbol [':']] := .symbol (by decide)
    rw [hText, hTokens]
    exact (ih.parenthesized.before hColon).before hId.spells

/-- Items with a comma and a space between them. -/
theorem spells_list {α : Type} {print : α → String} {tokens : α → List Token} {xs : List α}
    (h : ∀ x ∈ xs, Spells Apart (print x).toList (tokens x)) :
    Spells Apart (", ".intercalate (xs.map print)).toList (betweenCommas (xs.map tokens)) := by
  have hComma : Spells Anything [','] [.symbol [',']] := .symbol (by decide)
  induction xs with
  | nil => exact .nothing
  | cons x xs ih =>
    obtain ⟨hFirst, hOthers⟩ := List.forall_mem_cons.mp h
    cases xs with
    | nil =>
      rw [List.map_singleton, List.map_singleton, String.intercalate_singleton]
      simpa [betweenCommas, behindCommas] using hFirst
    | cons y ys =>
      -- a comma and a space behind the first item
      have hText : (", ".intercalate ((x :: y :: ys).map print)).toList =
          (print x).toList ++ ',' :: (' ' :: (", ".intercalate ((y :: ys).map print)).toList) := by
        rw [List.map_cons, List.map_cons, String.intercalate_cons_cons, String.toList_append,
          String.toList_append, List.append_assoc]
        rfl
      have hTokens : betweenCommas ((x :: y :: ys).map tokens) =
          tokens x ++ .symbol [','] :: betweenCommas ((y :: ys).map tokens) := by
        simp [betweenCommas, behindCommas]
      rw [hText, hTokens]
      exact hFirst.parted (hComma.before ((ih hOthers).blank (by decide))) (by decide)

/-! ## Expressions -/

/-- What is printed starts with no sign. -/
theorem DerivesExpr.printed_starts {level : Level} {e : Expr}
    (h : DerivesExpr .ordered level ts e) : StartsWith startsPrimary e.tokens := by
  -- operations start with their parenthesis, all else with its first token
  have hName : ∀ id : Ident, isName id.name.toList = true →
      StartsWith startsPrimary [id.token] := by
    intro id hName
    obtain ⟨⟨c, s, hWord, hStart⟩, -, -⟩ := isName_iff.mp hName
    exact ⟨_, [], c, s, rfl, hWord, startsPrimary_of_name hStart⟩
  have hIdent : ∀ {ts id}, DerivesIdent ts id → StartsWith startsPrimary [id.token] := by
    intro ts id hId
    cases hId with
    | name pos hWord => exact hName _ hWord
  induction h with
  | tighter _ _ ih => exact ih
  | assign | operation | comparison | sign => exact ⟨_, _, '(', [], rfl, rfl, by decide⟩
  | trueLit pos => exact DerivesExpr.primary_opens (.trueLit (d := .ordered) pos)
  | falseLit pos => exact DerivesExpr.primary_opens (.falseLit (d := .ordered) pos)
  | intLit pos _ hDigits => exact (DerivesExpr.printed_number pos hDigits).primary_opens
  | strLit pos hForm => exact DerivesExpr.primary_opens (.strLit (d := .ordered) pos hForm)
  | call hCallee _ _ _ _ _ => exact (hIdent hCallee).append _
  | parenthesized _ ih => exact ih
  | loc hLoc _ =>
    cases hLoc with
    | var hId => exact hIdent hId
    | field _ _ => exact ⟨_, _, '(', [], rfl, rfl, by decide⟩

/-- A call, whose arguments are spelled already. -/
theorem call_spells {callee : Ident} {args : List (List Token × Expr)}
    (hCallee : DerivesIdent ts callee)
    (hArgs : ∀ arg ∈ args, Spells Apart (arg.2.print false).toList arg.2.tokens) :
    Spells Anything (Expr.print false (.call callee (args.map (·.2)))).toList
      (Expr.call callee (args.map (·.2))).tokens := by
  -- the printed text, with the list of arguments in one piece
  have hText : (Expr.print false (.call callee (args.map (·.2)))).toList =
      callee.name.toList ++ '(' ::
        ((", ".intercalate ((args.map (·.2)).map (Expr.print false))).toList ++ [')']) := by
    rw [Expr.print, Ident.print_plain, Expr.printAll_eq_map]
    simp
  have hItems : ∀ arg ∈ args.map (·.2), Spells Apart (arg.print false).toList arg.tokens :=
    List.forall_mem_map.mpr hArgs
  rw [hText, Expr.tokens, Expr.tokensAll_eq_map]
  exact hCallee.spells.parted (spells_list hItems).parenthesized (by decide)

/-- An operation, whose operands are spelled already. -/
theorem binary_spells {left right : Expr} {op : List Char} (hKnown : op ∈ Token.punctuation)
    (hLeft : Spells Apart (left.print false).toList left.tokens)
    (hRight : Spells Apart (right.print false).toList right.tokens) :
    Spells Anything (Expr.print false (.binary (String.ofList op) left right)).toList
      (Expr.binary (String.ofList op) left right).tokens := by
  have hText : (Expr.print false (.binary (String.ofList op) left right)).toList =
      '(' :: ((left.print false).toList ++ ' ' :: (op ++ ' ' :: (right.print false).toList)
        ++ [')']) := by
    rw [Expr.print]
    simp
  rw [hText, Expr.tokens, String.toList_ofList]
  exact (hLeft.operation hKnown hRight).parenthesized

theorem assign_spells {target : Loc} {value : Expr} (hTarget : DerivesLoc ts target)
    (hValue : Spells Apart (value.print false).toList value.tokens) :
    Spells Anything (Expr.print false (.assign target value)).toList
      (Expr.assign target value).tokens := by
  -- the printed text, cut at the sign
  have hText : (Expr.print false (.assign target value)).toList =
      '(' :: ((target.print false).toList ++ ' ' :: (['='] ++ ' ' :: (value.print false).toList)
        ++ [')']) := by
    rw [Expr.print]
    simp
  have hKnown : ['='] ∈ Token.punctuation := by decide
  rw [hText, Expr.tokens]
  exact (hTarget.spells.operation hKnown hValue).parenthesized

/-- A sign is followed by anything but a minus sign, with which it would be that of a decrement. -/
theorem spells_sign {op : List Char} (hOp : op ∈ signs) :
    Spells (fun rest => ahead rest ≠ some '-') op [.symbol op] := by
  have hKnown : ∀ op ∈ signs, op ∈ Token.punctuation := by decide
  refine .token (t := .symbol op) (hKnown op hOp) ?_
  rintro rest hAhead (rfl | rfl)
  · exact absurd hOp (by decide)
  · intro hHead
    -- a second minus sign would be ahead
    obtain ⟨cs, rfl⟩ := List.head?_eq_some_iff.mp hHead
    exact hAhead (by rw [ahead, skipTrivia_of_starts (by decide)]; rfl)

/-- A sign and its operand are spelled in parentheses, and the sign is not read as a part of another
symbol. -/
theorem unary_spells {operand : Expr} {op : List Char} (hOp : op ∈ signs)
    (hStarts : StartsWith startsPrimary operand.tokens)
    (h : Spells Apart (operand.print false).toList operand.tokens) :
    Spells Anything (Expr.print false (.unary (String.ofList op) operand)).toList
      (Expr.unary (String.ofList op) operand).tokens := by
  have hText : (Expr.print false (.unary (String.ofList op) operand)).toList =
      '(' :: (op ++ (operand.print false).toList ++ [')']) := by
    rw [Expr.print]
    simp
  rw [hText, Expr.tokens, String.toList_ofList]
  refine Spells.parenthesized ((spells_sign hOp).append h ?_)
  intro rest hRest
  -- the operand starts with none of the signs
  obtain ⟨mid, hCut, -⟩ := h.cut rest hRest
  exact hStarts.ahead_ne hCut (by decide)

/-- Every expression that is derived from tokens is spelled by what is printed for it. -/
theorem DerivesExpr.spells {level : Level} {e : Expr} (h : DerivesExpr .ordered level ts e) :
    Spells Apart (e.print false).toList e.tokens := by
  -- parentheses end what they enclose, so anything may follow them
  have hLoose : ∀ {s ts}, Spells Anything s ts → Spells Apart s ts :=
    fun h => h.mono fun _ _ => trivial
  induction h with
  | tighter _ _ ih => exact ih
  | assign hTarget _ ih => exact hLoose (assign_spells hTarget ih)
  | operation hOp _ _ _ ihLeft ihRight =>
    have hKnown := List.mem_of_mem_filter (Level.operators_plain _ _ hOp)
    exact hLoose (binary_spells hKnown ihLeft ihRight)
  | comparison hOp _ _ ihLeft ihRight =>
    have hKnown : ∀ op ∈ comparisons, op ∈ Token.punctuation := by decide
    exact hLoose (binary_spells (hKnown _ hOp) ihLeft ihRight)
  | sign hOp hOperand ih => exact hLoose (unary_spells hOp hOperand.printed_starts ih)
  | trueLit pos =>
    rw [Expr.print, Expr.tokens]
    exact spells_truth pos true
  | falseLit pos =>
    rw [Expr.print, Expr.tokens]
    exact spells_truth pos false
  | intLit pos _ hDigits =>
    rw [Expr.print, Expr.tokens]
    have hForm := (DerivesExpr.printed_number pos hDigits).holds (formed_composed _)
    exact spells_number pos (hForm _ List.mem_cons_self)
  | strLit pos hForm => exact hLoose (spells_string pos hForm)
  | call hCallee _ args _ _ ih => exact hLoose (call_spells hCallee ih)
  | parenthesized _ ih => exact ih
  | loc hLoc _ => exact hLoc.spells

end Grammar

end NameResolution
