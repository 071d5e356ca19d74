import NameResolution.Proofs.Grammar.Levels
import NameResolution.Proofs.Grammar.Signed

/-!
# Reading expressions — what is read from a text is derived from its tokens

Whatever a parser reads, the text in front of what it leaves is cut into tokens, and these tokens
derive the result. The alternatives are tried in order, so where one of them has been reached, the
earlier ones have rejected the text: this is where the conditions of the ordered dialect come from.
An expression may start with a sign, so its cut need not be one behind an operand.

* `Reads` — what a parser reads is derived.
* `expression_reads` — expressions.
-/

namespace NameResolution.Grammar

open NameResolution.Grammar.Parser

variable {α : Type} {ctx : Context} {cs mid rest : List Char}

/-- Whatever `p` reads is derived from the tokens in front of the rest, and they are cut such that
they can stand behind an operand if `behind` says so. -/
def Reads (ctx : Context) (behind : Bool) (p : Parser α) (derives : List Token → α → Prop) :
    Prop :=
  ∀ ⦃cs a rest⦄, p ctx cs = .matched a rest →
    ∃ ts, SeenCut ctx behind ts cs rest ∧ derives ts a

/-- What is read behind anything is read behind an operand too. -/
theorem Reads.weaken {p : Parser α} {derives : List Token → α → Prop}
    (h : Reads ctx true p derives) : Reads ctx false p derives := by
  intro cs a rest hRead
  obtain ⟨ts, hCut, hDerives⟩ := h hRead
  exact ⟨ts, hCut.weaken false, hDerives⟩

/-! ## Lexemes -/

/-- A symbol that matches is one token, signs apart. -/
theorem symbol_reads {s : List Char} {u : Unit} {behind : Bool}
    (hPlain : s ≠ [] ∧ s ≠ ['+'] ∧ s ≠ ['-']) (h : symbol s ctx cs = .matched u rest) :
    SeenCut ctx behind [.symbol s] cs rest := by
  refine .single (symbol_eq_matched.mp h) hPlain.1 ⟨trivial, ?_⟩ fun _ =>
    Token.not_doubled hPlain.2 rest
  intro pos hPos
  cases hPos

/-- A keyword that matches is one token. -/
theorem keyword_reads {k : Keyword} {u : Unit} {behind : Bool}
    (h : keyword k ctx cs = .matched u rest) :
    SeenCut ctx behind [.keyword k] cs rest := by
  obtain ⟨hText, hEnd⟩ := keyword_eq_matched.mp h
  refine .single hText k.chars_ne_nil ⟨hEnd, ?_⟩ fun _ => not_false
  intro pos hPos
  cases hPos

/-- A truth value that matches is one token with its position. -/
theorem truth_reads {value : Bool} {u : Unit} {behind : Bool}
    (h : keyword (Token.truthWord value) ctx cs = .matched u rest) :
    SeenCut ctx behind [.truth (ctx.locate (skipTrivia cs)) value] cs rest := by
  obtain ⟨hText, hEnd⟩ := keyword_eq_matched.mp h
  refine .single hText (Token.truthWord value).chars_ne_nil ⟨hEnd, ?_⟩
    fun _ => not_false
  intro pos hPos
  cases hPos
  rfl

/-- An identifier that matches is one token with its position. -/
theorem ident_reads : Reads ctx true ident DerivesIdent := by
  intro cs id rest h
  obtain ⟨hPos, hSymbol, hName, hText, hEnd⟩ := ident_eq_matched.mp h
  obtain ⟨pos, word, symbol?⟩ := id
  subst hPos hSymbol
  -- a name has at least the character it starts with
  have hSome : word.toList ≠ [] := by
    obtain ⟨⟨c, s, hWord, -⟩, -, -⟩ := isName_iff.mp hName
    rw [hWord]
    exact List.cons_ne_nil c s
  refine ⟨[.name _ word], .single hText hSome ⟨hEnd, ?_⟩ fun _ => not_false,
    .name _ hName⟩
  intro pos hPos
  cases hPos
  rfl

/-! ## Repetitions and lists -/

theorem Rows.nil {derives : List Token → α → Prop} : Rows derives [] [] :=
  ⟨[], by simp, rfl, rfl⟩

/-- One row more in front. -/
theorem Rows.cons {derives : List Token → α → Prop} {ts us : List Token} {x : α} {xs : List α}
    (hItem : derives ts x) (hItems : Rows derives us xs) : Rows derives (ts ++ us) (x :: xs) := by
  obtain ⟨rows, hRows, rfl, rfl⟩ := hItems
  refine ⟨(ts, x) :: rows, ?_, rfl, rfl⟩
  intro row hRow
  rcases List.mem_cons.mp hRow with rfl | hRow
  · exact hItem
  · exact hRows row hRow

/-- The items of a repetition are rows of tokens. -/
theorem many_reads {p : Parser α} {derives : List Token → α → Prop}
    (hp : Reads ctx true p derives) : Reads ctx true (many p) (Rows derives) := by
  intro cs as rest h
  refine many_induction
    (motive := fun cs as rest => ∃ ts, SeenCut ctx true ts cs rest ∧ Rows derives ts as) ?_ ?_ h
  · intro cs
    exact ⟨[], .nil true cs, .nil⟩
  · rintro cs a mid as rest hItem ⟨us, hCut, hRows⟩
    obtain ⟨ts, hFirst, hDerives⟩ := hp hItem
    exact ⟨ts ++ us, hFirst.append hCut, .cons hDerives hRows⟩

/-- Rows that start with a comma are rows behind commas. -/
theorem rows_behindCommas {derives : List Token → α → Prop} {rows : List (List Token × α)}
    (hRows : ∀ row ∈ rows, ∃ us, row.1 = .symbol [','] :: us ∧ derives us row.2) :
    ∃ rows' : List (List Token × α), (∀ row ∈ rows', derives row.1 row.2) ∧
      rows.flatMap (·.1) = behindCommas (rows'.map (·.1)) ∧
      rows.map (·.2) = rows'.map (·.2) := by
  induction rows with
  | nil => exact ⟨[], by simp, rfl, rfl⟩
  | cons row rows ih =>
    obtain ⟨us, hTokens, hDerives⟩ := hRows row List.mem_cons_self
    obtain ⟨rows', hRows', hComma, hValues⟩ :=
      ih fun row hRow => hRows row (List.mem_cons_of_mem _ hRow)
    -- the comma is taken off the row, and its tree stays
    refine ⟨(us, row.2) :: rows', ?_, ?_, ?_⟩
    · intro row' hRow'
      rcases List.mem_cons.mp hRow' with rfl | hRow'
      · exact hDerives
      · exact hRows' row' hRow'
    · rw [List.flatMap_cons, hTokens, hComma]
      rfl
    · rw [List.map_cons, hValues]
      rfl

/-- What a list reads is one of the lists of the dialect. -/
theorem sepBy_reads {p : Parser α} {derives : List Token → α → Prop} {xs : List α}
    (hp : Reads ctx false p derives) (h : sepBy p (symbol [',']) ctx cs = .matched xs rest) :
    ∃ (rows : List (List Token × α)) (ts : List Token), SeenCut ctx false ts cs rest ∧
      (∀ row ∈ rows, derives row.1 row.2) ∧ xs = rows.map (·.2) ∧
      ctx.dialect.Listed (rows.map (·.1)) ts := by
  obtain ⟨first?, mid, hFirst, h⟩ := bind_eq_matched.mp h
  obtain ⟨others, mid', hOthers, hPure⟩ := bind_eq_matched.mp h
  obtain ⟨rfl, rfl⟩ := pure_eq_matched.mp hPure
  -- each of the others stands behind its comma
  have hItem : Reads ctx true (symbol [','] >>= fun _ => p)
      (fun ts x => ∃ us, ts = .symbol [','] :: us ∧ derives us x) := by
    intro cs x rest h
    obtain ⟨u, mid, hComma, hNext⟩ := bind_eq_matched.mp h
    obtain ⟨us, hCut, hDerives⟩ := hp hNext
    exact ⟨_, (symbol_reads (by decide) hComma).lead rfl hCut, us, rfl, hDerives⟩
  obtain ⟨vs, hCut, rows, hRows, rfl, rfl⟩ := many_reads hItem hOthers
  obtain ⟨rows', hRows', hComma, hValues⟩ := rows_behindCommas hRows
  rw [hComma] at hCut
  rw [hValues]
  rcases optional_eq_matched.mp hFirst with ⟨x, rfl, hItem⟩ | ⟨rfl, -, rfl⟩
  · obtain ⟨ts, hFirstCut, hDerives⟩ := hp hItem
    refine ⟨(ts, x) :: rows', _, hFirstCut.append hCut, ?_, rfl, .inl rfl⟩
    intro row hRow
    rcases List.mem_cons.mp hRow with rfl | hRow
    · exact hDerives
    · exact hRows' row hRow
  · exact ⟨rows', _, hCut.weaken false, hRows', rfl, .inr ⟨trivial, rfl⟩⟩

/-! ## Locations -/

/-- Fields behind a location make a location. -/
theorem DerivesLoc.fields {ts : List Token} {left : Loc} {rows : List (List Token × Ident)}
    (hLeft : DerivesLoc ts left)
    (hRows : ∀ row ∈ rows, ∃ us, row.1 = .symbol [':'] :: us ∧ DerivesIdent us row.2) :
    DerivesLoc (ts ++ rows.flatMap (·.1)) ((rows.map (·.2)).foldl Loc.field left) := by
  induction rows generalizing ts left with
  | nil =>
    rw [List.flatMap_nil, List.append_nil]
    exact hLeft
  | cons row rows ih =>
    obtain ⟨us, hTokens, hId⟩ := hRows row List.mem_cons_self
    rw [List.flatMap_cons, hTokens, ← List.append_assoc]
    exact ih (.field hLeft hId) fun row hRow => hRows row (List.mem_cons_of_mem _ hRow)

/-- What is read as a location derives it. -/
theorem location_reads : Reads ctx true location DerivesLoc := by
  intro cs loc rest h
  obtain ⟨first, mid, hFirst, h⟩ := bind_eq_matched.mp h
  obtain ⟨fields, mid', hFields, hPure⟩ := bind_eq_matched.mp h
  obtain ⟨rfl, rfl⟩ := pure_eq_matched.mp hPure
  obtain ⟨ts, hCut, hId⟩ := ident_reads hFirst
  -- each field stands behind its colon
  have hField : Reads ctx true (symbol [':'] >>= fun _ => ident)
      (fun ts id => ∃ us, ts = .symbol [':'] :: us ∧ DerivesIdent us id) := by
    intro cs id rest h
    obtain ⟨u, mid, hColon, hNext⟩ := bind_eq_matched.mp h
    obtain ⟨us, hCut, hId⟩ := ident_reads hNext
    exact ⟨_, (symbol_reads (by decide) hColon).append hCut, us, rfl, hId⟩
  obtain ⟨us, hRest, rows, hRows, rfl, rfl⟩ := many_reads hField hFields
  exact ⟨_, hCut.append hRest, (DerivesLoc.var hId).fields hRows⟩

/-! ## Primary expressions -/

/-- A name is read where the keyword has been rejected, so the keyword cannot be read off the
name. -/
theorem not_opens_of_rejected {k : Keyword} {id : Ident}
    (hKeyword : keyword k ctx cs = .rejected) (hId : ident ctx cs = .matched id rest) :
    ¬ k.Opens id.name := by
  rintro ⟨tail, hWord⟩
  obtain ⟨-, -, -, hText, -⟩ := ident_eq_matched.mp hId
  rw [List.append_assoc] at hWord
  rw [keyword_opens_name hText hWord.symm] at hKeyword
  cases hKeyword

/-- A truth value that is rejected is so because its keyword is. -/
theorem keyword_rejected_of_literal (k : Keyword) (f : Position → Expr)
    (h : (here >>= fun pos => keyword k >>= fun _ => pure (f pos)) ctx cs = .rejected) :
    keyword k ctx cs = .rejected := by
  rcases lexeme_matched_or_rejected (scanKeyword k) ctx cs with ⟨u, rest, hMatch⟩ | hReject
  · rw [here_bind, bind_of_matched (p := keyword k) hMatch] at h
    cases h
  · exact hReject

/-- What is read as a truth value is its token. -/
theorem truthLit_reads (value : Bool) (f : Position → Expr) {e : Expr}
    (h : (here >>= fun pos => keyword (Token.truthWord value) >>= fun _ => pure (f pos))
      ctx cs = .matched e rest) :
    ∃ pos, SeenCut ctx true [.truth pos value] cs rest ∧ e = f pos := by
  rw [here_bind] at h
  obtain ⟨u, mid, hKeyword, hPure⟩ := bind_eq_matched.mp h
  obtain ⟨rfl, rfl⟩ := pure_eq_matched.mp hPure
  exact ⟨_, truth_reads hKeyword, rfl⟩

/-- What is read as a number derives its literal. -/
theorem intLit_reads : Reads ctx true intLit (DerivesExpr ctx.dialect .primary) := by
  intro cs e rest h
  rw [intLit, here_bind] at h
  obtain ⟨value, mid, hNumber, hPure⟩ := bind_eq_matched.mp h
  obtain ⟨rfl, rfl⟩ := pure_eq_matched.mp hPure
  obtain ⟨digits, hForm, hLength, hText, hEnd, rfl⟩ := number_eq_matched.mp hNumber
  refine ⟨[.number (ctx.locate (skipTrivia cs)) digits], .single hText hForm.1 ⟨⟨hEnd, hLength⟩, ?_⟩
    fun _ => not_false, .intLit _ hForm hLength⟩
  intro pos hPos
  cases hPos
  rfl

/-- What is read as a string derives its literal. -/
theorem strLit_reads : Reads ctx true strLit (DerivesExpr ctx.dialect .primary) := by
  intro cs e rest h
  rw [strLit, here_bind] at h
  obtain ⟨literal, mid, hString, hPure⟩ := bind_eq_matched.mp h
  obtain ⟨rfl, rfl⟩ := pure_eq_matched.mp hPure
  obtain ⟨hSelf, hText⟩ := string_eq_matched.mp hString
  refine ⟨[.string (ctx.locate (skipTrivia cs)) literal],
    .single hText (string_ne_nil hSelf) ⟨trivial, ?_⟩ fun _ => not_false,
    .strLit _ hSelf⟩
  intro pos hPos
  cases hPos
  rfl

/-- The parts of a call, of which the callee has been read by `ident`. -/
theorem callParts_reads {expr : Parser Expr} {callee : Ident} {args : List Expr}
    (hExpr : Reads ctx false expr (DerivesExpr ctx.dialect .assignment))
    (h : callParts expr ctx cs = .matched (callee, args) rest) :
    ∃ (ts us : List Token) (rows : List (List Token × Expr)) (mid : List Char),
      SeenCut ctx true (ts ++ enclosed '(' ')' us) cs rest ∧
      ident ctx cs = .matched callee mid ∧ DerivesIdent ts callee ∧
      (∀ row ∈ rows, DerivesExpr ctx.dialect .assignment row.1 row.2) ∧ args = rows.map (·.2) ∧
      ctx.dialect.Listed (rows.map (·.1)) us := by
  -- the parts of a call are read one after the other
  obtain ⟨id, cs₁, hId, h⟩ := bind_eq_matched.mp h
  obtain ⟨u, cs₂, hOpen, h⟩ := bind_eq_matched.mp h
  obtain ⟨xs, cs₃, hArgs, h⟩ := bind_eq_matched.mp h
  obtain ⟨v, cs₄, hClose, hPure⟩ := bind_eq_matched.mp h
  obtain ⟨hParts, rfl⟩ := pure_eq_matched.mp hPure
  obtain ⟨rfl, rfl⟩ := Prod.ext_iff.mp hParts
  obtain ⟨ts, hCallee, hDerives⟩ := ident_reads hId
  obtain ⟨rows, us, hList, hRows, rfl, hListed⟩ := sepBy_reads hExpr hArgs
  have hBrackets : SeenCut ctx true (enclosed '(' ')' us) cs₁ cs₄ :=
    (symbol_reads (by decide) hOpen).lead rfl (hList.append (symbol_reads (by decide) hClose))
  exact ⟨ts, us, rows, cs₁, hCallee.append hBrackets, hId, hDerives, hRows, rfl, hListed⟩

/-- What is read in round brackets derives the inside between two bracket tokens. -/
theorem parenthesized_reads {expr : Parser Expr} {derives : List Token → Expr → Prop}
    (hExpr : Reads ctx false expr derives) :
    Reads ctx true (parenthesized expr) fun ts e =>
      ∃ us, ts = enclosed '(' ')' us ∧ derives us e := by
  intro cs e rest h
  obtain ⟨u, cs₁, hOpen, h⟩ := bind_eq_matched.mp h
  obtain ⟨e', cs₂, hInner, h⟩ := bind_eq_matched.mp h
  obtain ⟨v, cs₃, hClose, hPure⟩ := bind_eq_matched.mp h
  obtain ⟨rfl, rfl⟩ := pure_eq_matched.mp hPure
  obtain ⟨us, hCut, hDerives⟩ := hExpr hInner
  exact ⟨enclosed '(' ')' us,
    -- behind the opening bracket an operand is missing, so a sign may stand first
    (symbol_reads (by decide) hOpen).lead rfl (hCut.append (symbol_reads (by decide) hClose)),
    us, rfl, hDerives⟩

/-- A location starts with its root. -/
theorem location_root {loc : Loc} (h : location ctx cs = .matched loc rest) :
    ∃ mid, ident ctx cs = .matched loc.root mid := by
  obtain ⟨first, mid, hFirst, h⟩ := bind_eq_matched.mp h
  obtain ⟨fields, mid', hFields, hPure⟩ := bind_eq_matched.mp h
  obtain ⟨rfl, rfl⟩ := pure_eq_matched.mp hPure
  -- fields on the right do not change the root
  have hRoot : ∀ (fields : List Ident) (left : Loc),
      (fields.foldl Loc.field left).root = left.root := by
    intro fields
    induction fields with
    | nil => exact fun left => rfl
    | cons id fields ih => exact fun left => ih (.field left id)
  refine ⟨mid, ?_⟩
  rw [hRoot]
  exact hFirst

/-- Every choice of a primary expression derives it, if the expressions inside do. -/
theorem primary_reads {expr : Parser Expr}
    (hExpr : Reads ctx false expr (DerivesExpr ctx.dialect .assignment)) :
    Reads ctx true (primary expr) (DerivesExpr ctx.dialect .primary) := by
  intro cs e rest h
  rcases orElse_eq_matched.mp h with hTrue | ⟨hNoTrue, h⟩
  · obtain ⟨pos, hCut, rfl⟩ := truthLit_reads true .trueLit hTrue
    exact ⟨_, hCut, .trueLit pos⟩
  rcases orElse_eq_matched.mp h with hFalse | ⟨hNoFalse, h⟩
  · obtain ⟨pos, hCut, rfl⟩ := truthLit_reads false .falseLit hFalse
    exact ⟨_, hCut, .falseLit pos⟩
  -- both truth values have been rejected, so a name here starts with neither of them
  have hOperand : ∀ {id mid}, ident ctx cs = .matched id mid →
      ctx.dialect.operand id.name := fun hId =>
    ⟨not_opens_of_rejected (keyword_rejected_of_literal .trueWord .trueLit hNoTrue) hId,
      not_opens_of_rejected (keyword_rejected_of_literal .falseWord .falseLit hNoFalse) hId⟩
  rcases orElse_eq_matched.mp h with hInt | ⟨-, h⟩
  · exact intLit_reads hInt
  rcases orElse_eq_matched.mp h with hStr | ⟨-, h⟩
  · exact strLit_reads hStr
  rcases orElse_eq_matched.mp h with hCall | ⟨-, h⟩
  · obtain ⟨⟨callee, args⟩, mid, hParts, hPure⟩ := bind_eq_matched.mp hCall
    obtain ⟨rfl, rfl⟩ := pure_eq_matched.mp hPure
    obtain ⟨ts, us, rows, cs₁, hCut, hId, hCallee, hRows, rfl, hList⟩ :=
      callParts_reads hExpr hParts
    exact ⟨_, hCut, .call hCallee (hOperand hId) rows hRows hList⟩
  rcases orElse_eq_matched.mp h with hParen | ⟨-, h⟩
  · obtain ⟨ts, hCut, us, rfl, hInner⟩ := parenthesized_reads hExpr hParen
    exact ⟨_, hCut, .parenthesized hInner⟩
  · obtain ⟨loc, hLoc, rfl⟩ := map_eq_matched.mp h
    obtain ⟨ts, hCut, hDerives⟩ := location_reads hLoc
    obtain ⟨cs₁, hRoot⟩ := location_root hLoc
    exact ⟨ts, hCut, .loc hDerives (hOperand hRoot)⟩

/-! ## Operators -/

/-- An operator that matches is one token. -/
theorem operator_reads {ops : List (List Char)} {o : String} (behind : Bool)
    (hSome : ∀ op ∈ ops, op ≠ [])
    (hPlain : behind = true → ∀ op ∈ ops, op ≠ ['+'] ∧ op ≠ ['-'])
    (h : operator ops ctx cs = .matched o rest) :
    ∃ op ∈ ops, o = String.ofList op ∧ SeenCut ctx behind [.symbol op] cs rest := by
  obtain ⟨op, hOp, hValue, hText⟩ := operator_eq_matched h
  refine ⟨op, hOp, hValue, .single hText (hSome op hOp) ⟨trivial, ?_⟩ fun hBehind =>
    Token.not_doubled (hPlain hBehind op hOp) rest⟩
  intro pos hPos
  cases hPos

/-- An operator of a level is one token, which no operand ends with. -/
theorem Level.operator_reads {level : Level} {o : String} (hOps : level.operators ≠ [])
    (h : level.operator ctx cs = .matched o rest) :
    ∃ op ∈ level.operators, o = String.ofList op ∧ SeenCut ctx true [.symbol op] cs rest := by
  cases level with
  | disjunction | conjunction | product =>
    exact Grammar.operator_reads true (by decide) (fun _ => by decide) h
  | sum =>
    change lexeme (scanSingle ['+', '-']) ctx cs = .matched o rest at h
    obtain ⟨c, hOp, hValue, hText, hSingle⟩ := single_eq_matched.mp h
    -- a plus or minus sign is read as a single character
    have hSum : [c] ∈ Level.sum.operators := by
      rcases List.mem_pair.mp hOp with rfl | rfl <;> decide
    refine ⟨[c], hSum, hValue, .single hText (List.cons_ne_nil c []) ⟨trivial, ?_⟩
      fun _ hDoubled => hSingle hDoubled.2⟩
    intro pos hPos
    cases hPos
  | assignment | comparison | unary | primary => exact absurd rfl hOps

/-- A sign that matches is one token. -/
theorem sign_reads :
    Reads ctx false sign fun ts o => ∃ op ∈ signs, ts = [.symbol op] ∧ o = String.ofList op := by
  intro cs o rest h
  -- the first choice is the minus, the second one is the negation with a look behind it
  rcases orElse_eq_matched.mp h with hMinus | ⟨-, h⟩
  · obtain ⟨op, hOp, hValue, hCut⟩ := operator_reads false (by decide) nofun hMinus
    obtain rfl := List.mem_singleton.mp hOp
    exact ⟨_, hCut, _, by decide, rfl, hValue⟩
  · obtain ⟨o', mid, hNot, h⟩ := bind_eq_matched.mp h
    obtain ⟨u, mid', hAhead, hPure⟩ := bind_eq_matched.mp h
    obtain ⟨rfl, rfl⟩ := pure_eq_matched.mp hPure
    obtain ⟨-, rfl⟩ := notAhead_eq_matched hAhead
    obtain ⟨op, hOp, hValue, hCut⟩ := operator_reads false (by decide) nofun hNot
    obtain rfl := List.mem_singleton.mp hOp
    exact ⟨_, hCut, _, by decide, rfl, hValue⟩

/-- Signs in front of an operand make an operand. -/
theorem DerivesExpr.signed {d : Dialect} {ts : List Token} {e : Expr}
    {rows : List (List Token × String)} (h : DerivesExpr d .unary ts e)
    (hRows : ∀ row ∈ rows, ∃ op ∈ signs, row.1 = [.symbol op] ∧ row.2 = String.ofList op) :
    DerivesExpr d .unary (rows.flatMap (·.1) ++ ts) ((rows.map (·.2)).foldr Expr.unary e) := by
  induction rows with
  | nil => exact h
  | cons row rows ih =>
    obtain ⟨op, hOp, hTokens, hValue⟩ := hRows row List.mem_cons_self
    rw [List.flatMap_cons, hTokens, List.map_cons, hValue]
    exact .sign hOp (ih fun row hRow => hRows row (List.mem_cons_of_mem _ hRow))

/-- Signs are read one after the other, and whatever is cut behind them is cut behind no
operand. -/
theorem signs_read {os : List String} (h : many sign ctx cs = .matched os mid) :
    ∃ rows : List (List Token × String),
      (∀ row ∈ rows, ∃ op ∈ signs, row.1 = [.symbol op] ∧ row.2 = String.ofList op) ∧
      os = rows.map (·.2) ∧
      ∀ us rest, SeenCut ctx false us mid rest →
        SeenCut ctx false (rows.flatMap (·.1) ++ us) cs rest := by
  refine many_induction
    (motive := fun cs os mid => ∃ rows : List (List Token × String),
      (∀ row ∈ rows, ∃ op ∈ signs, row.1 = [.symbol op] ∧ row.2 = String.ofList op) ∧
      os = rows.map (·.2) ∧
      ∀ us rest, SeenCut ctx false us mid rest →
        SeenCut ctx false (rows.flatMap (·.1) ++ us) cs rest) ?_ ?_ h
  -- without signs the operand stands alone
  · intro cs
    exact ⟨[], by simp, rfl, fun us rest hCut => hCut⟩
  · rintro cs o mid os rest hItem ⟨rows, hRows, rfl, hBehind⟩
    obtain ⟨ts, hFirst, op, hOp, rfl, hValue⟩ := sign_reads hItem
    refine ⟨([.symbol op], o) :: rows, ?_, rfl, ?_⟩
    · exact List.forall_mem_cons.mpr ⟨⟨op, hOp, rfl, hValue⟩, hRows⟩
    · intro us rest' hCut
      have hOpen : (Token.symbol op).endsOperand = false := by
        rcases List.mem_pair.mp hOp with rfl | rfl <;> rfl
      exact hFirst.lead hOpen (hBehind us rest' hCut)

/-- Signs and a primary expression derive an operand. -/
theorem unary_reads {expr : Parser Expr}
    (hExpr : Reads ctx false expr (DerivesExpr ctx.dialect .assignment)) :
    Reads ctx false (unary expr) (DerivesExpr ctx.dialect .unary) := by
  intro cs e rest h
  obtain ⟨os, mid, hSigns, h⟩ := bind_eq_matched.mp h
  obtain ⟨operand, mid', hOperand, hPure⟩ := bind_eq_matched.mp h
  obtain ⟨rfl, rfl⟩ := pure_eq_matched.mp hPure
  obtain ⟨rows, hRows, rfl, hBehind⟩ := signs_read hSigns
  obtain ⟨us, hCut, hDerives⟩ := primary_reads hExpr hOperand
  exact ⟨_, hBehind us _ (hCut.weaken false), (DerivesExpr.tighter rfl hDerives).signed hRows⟩

/-- An operator and its operand are read as such. -/
theorem operation_reads {op : Parser String} {operand : Parser Expr} {ops : List (List Char)}
    {derives : List Token → Expr → Prop}
    (hOp : ∀ {cs o rest}, op ctx cs = .matched o rest →
      ∃ op ∈ ops, o = String.ofList op ∧ SeenCut ctx true [.symbol op] cs rest)
    (hOpen : ∀ op ∈ ops, (Token.symbol op).endsOperand = false)
    (hOperand : Reads ctx false operand derives) :
    Reads ctx true (operation op operand) fun ts pair =>
      ∃ op ∈ ops, ∃ us, ts = .symbol op :: us ∧ pair.1 = String.ofList op ∧ derives us pair.2 := by
  intro cs pair rest h
  obtain ⟨o, mid, hFirst, h⟩ := bind_eq_matched.mp h
  obtain ⟨e, mid', hSecond, hPure⟩ := bind_eq_matched.mp h
  obtain ⟨rfl, rfl⟩ := pure_eq_matched.mp hPure
  obtain ⟨s, hMem, hValue, hCut⟩ := hOp hFirst
  obtain ⟨us, hRest, hDerives⟩ := hOperand hSecond
  -- behind an operator an operand is missing, so a sign may start it
  exact ⟨_, hCut.lead (hOpen s hMem) hRest, s, hMem, us, rfl, hValue, hDerives⟩

/-- Operations behind an expression make an expression of the same level. -/
theorem DerivesExpr.operations {d : Dialect} {level next : Level} {ts : List Token} {e : Expr}
    {rows : List (List Token × String × Expr)} (hNext : level.tighter? = some next)
    (h : DerivesExpr d level ts e)
    (hRows : ∀ row ∈ rows, ∃ op ∈ level.operators, ∃ us, row.1 = .symbol op :: us ∧
      row.2.1 = String.ofList op ∧ DerivesExpr d next us row.2.2) :
    DerivesExpr d level (ts ++ rows.flatMap (·.1)) (foldPairs Expr.binary e (rows.map (·.2))) := by
  -- the induction goes from the left, as the operations are joined from there
  induction rows generalizing ts e with
  | nil =>
    rw [List.flatMap_nil, List.append_nil]
    exact h
  | cons row rows ih =>
    obtain ⟨tokens, o, right⟩ := row
    obtain ⟨op, hOp, us, rfl, rfl, hRight⟩ := hRows _ List.mem_cons_self
    rw [List.flatMap_cons, ← List.append_assoc]
    exact ih (.operation hOp hNext h hRight) fun row hRow =>
      hRows row (List.mem_cons_of_mem _ hRow)

/-- Behind an operator an operand is missing. -/
theorem Level.operators_open (level : Level) :
    ∀ op ∈ level.operators, (Token.symbol op).endsOperand = false := by
  cases level <;> decide

/-- A level with operators derives what it reads if the next level does. -/
theorem operations_read {expr : Parser Expr} {level next : Level} (hOps : level.operators ≠ [])
    (hNext : level.tighter? = some next)
    (hOperand : Reads ctx false (levelParser expr next) (DerivesExpr ctx.dialect next)) :
    Reads ctx false (levelParser expr level) (DerivesExpr ctx.dialect level) := by
  intro cs e rest h
  -- one operand and then any number of operations, joined from the left
  rw [levelParser_operation expr hOps hNext] at h
  obtain ⟨first, mid, hFirst, h⟩ := bind_eq_matched.mp h
  obtain ⟨pairs, mid', hPairs, hPure⟩ := bind_eq_matched.mp h
  obtain ⟨rfl, rfl⟩ := pure_eq_matched.mp hPure
  obtain ⟨ts, hCut, hDerives⟩ := hOperand hFirst
  obtain ⟨us, hRest, rows, hRows, rfl, rfl⟩ := many_reads
    (operation_reads (fun h => level.operator_reads hOps h) level.operators_open hOperand) hPairs
  exact ⟨_, hCut.append hRest, (DerivesExpr.tighter hNext hDerives).operations hNext hRows⟩

/-- A sum, with a comparison behind it or not, derives a comparison. -/
theorem comparison_reads {expr : Parser Expr}
    (hSum : Reads ctx false (sum expr) (DerivesExpr ctx.dialect .sum)) :
    Reads ctx false (comparison expr) (DerivesExpr ctx.dialect .comparison) := by
  intro cs e rest h
  obtain ⟨first, mid, hFirst, h⟩ := bind_eq_matched.mp h
  obtain ⟨pair?, mid', hPair, hPure⟩ := bind_eq_matched.mp h
  obtain ⟨rfl, rfl⟩ := pure_eq_matched.mp hPure
  obtain ⟨ts, hCut, hDerives⟩ := hSum hFirst
  rcases optional_eq_matched.mp hPair with ⟨⟨o, right⟩, rfl, hOperation⟩ | ⟨rfl, -, rfl⟩
  -- with an operation the comparison is one; it has no second one
  · obtain ⟨vs, hRest, op, hOp, us, rfl, hValue, hRight⟩ :=
      operation_reads (fun h => operator_reads true (by decide) (fun _ => by decide) h) (by decide)
        hSum hOperation
    obtain rfl : o = String.ofList op := hValue
    exact ⟨_, hCut.append hRest, .comparison hOp hDerives hRight⟩
  · exact ⟨ts, hCut, .tighter rfl hDerives⟩

/-- All levels up to the loosest one but assignments derive what they read. -/
theorem disjunction_reads {expr : Parser Expr}
    (hExpr : Reads ctx false expr (DerivesExpr ctx.dialect .assignment)) :
    Reads ctx false (disjunction expr) (DerivesExpr ctx.dialect .disjunction) := by
  -- from the tightest level up
  have hUnary : Reads ctx false (levelParser expr .unary) (DerivesExpr ctx.dialect .unary) :=
    unary_reads hExpr
  have hProduct : Reads ctx false (levelParser expr .product) (DerivesExpr ctx.dialect .product) :=
    operations_read (by decide) rfl hUnary
  have hSum : Reads ctx false (levelParser expr .sum) (DerivesExpr ctx.dialect .sum) :=
    operations_read (by decide) rfl hProduct
  have hComparison :
      Reads ctx false (levelParser expr .comparison) (DerivesExpr ctx.dialect .comparison) :=
    comparison_reads hSum
  have hConjunction :
      Reads ctx false (levelParser expr .conjunction) (DerivesExpr ctx.dialect .conjunction) :=
    operations_read (by decide) rfl hComparison
  show Reads ctx false (levelParser expr .disjunction) (DerivesExpr ctx.dialect .disjunction)
  exact operations_read (by decide) rfl hConjunction

/-! ## Assignments and whole expressions -/

/-- The two sides of an assignment are read as such. -/
theorem assignmentParts_reads {expr : Parser Expr} {derives : List Token → Expr → Prop}
    {target : Loc} {value : Expr} (hExpr : Reads ctx false expr derives)
    (h : assignmentParts expr ctx cs = .matched (target, value) rest) :
    ∃ ts us, SeenCut ctx true (ts ++ .symbol ['='] :: us) cs rest ∧
      DerivesLoc ts target ∧ derives us value := by
  obtain ⟨loc, cs₁, hTarget, h⟩ := bind_eq_matched.mp h
  obtain ⟨u, cs₂, hSign, h⟩ := bind_eq_matched.mp h
  obtain ⟨v, cs₃, hSingle, h⟩ := bind_eq_matched.mp h
  obtain ⟨e, cs₄, hValue, hPure⟩ := bind_eq_matched.mp h
  obtain ⟨hParts, rfl⟩ := pure_eq_matched.mp hPure
  obtain ⟨rfl, rfl⟩ := Prod.ext_iff.mp hParts
  -- the look for a second equality sign has read nothing
  obtain ⟨-, rfl⟩ := notAhead_eq_matched hSingle
  obtain ⟨ts, hCut, hLoc⟩ := location_reads hTarget
  obtain ⟨us, hRest, hDerives⟩ := hExpr hValue
  exact ⟨ts, us, hCut.append ((symbol_reads (by decide) hSign).lead rfl hRest), hLoc, hDerives⟩

theorem levels_read {expr : Parser Expr}
    (hExpr : Reads ctx false expr (DerivesExpr ctx.dialect .assignment)) :
    Reads ctx false (levelParser expr .assignment) (DerivesExpr ctx.dialect .assignment) := by
  intro cs e rest h
  rcases orElse_eq_matched.mp h with hAssign | ⟨-, h⟩
  · obtain ⟨⟨target, value⟩, mid, hParts, hPure⟩ := bind_eq_matched.mp hAssign
    obtain ⟨rfl, rfl⟩ := pure_eq_matched.mp hPure
    obtain ⟨ts, us, hCut, hTarget, hValue⟩ := assignmentParts_reads hExpr hParts
    exact ⟨_, hCut.weaken false, .assign hTarget hValue⟩
  · obtain ⟨ts, hCut, hDerives⟩ := disjunction_reads hExpr h
    exact ⟨ts, hCut, .tighter rfl hDerives⟩

theorem unroll_reads {rule : Parser α → Parser α} {derives : List Token → α → Prop} {behind : Bool}
    (hRule : ∀ {p}, Reads ctx behind p derives → Reads ctx behind (rule p) derives) (n : Nat) :
    Reads ctx behind (unroll rule n) derives := by
  induction n with
  | zero =>
    intro cs a rest h
    cases h
  | succ n ih =>
    intro cs a rest h
    exact hRule ih h

theorem fix_reads {rule : Parser α → Parser α} {derives : List Token → α → Prop} {behind : Bool}
    (hRule : ∀ {p}, Reads ctx behind p derives → Reads ctx behind (rule p) derives) :
    Reads ctx behind (fix rule) derives := by
  intro cs a rest h
  exact unroll_reads hRule (cs.length + 1) h

theorem expression_reads : Reads ctx false expression (DerivesExpr ctx.dialect .assignment) :=
  fix_reads levels_read

end NameResolution.Grammar
