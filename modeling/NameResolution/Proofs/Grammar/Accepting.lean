import NameResolution.Proofs.Grammar.Levels
import NameResolution.Proofs.Grammar.Signed
import NameResolution.Proofs.Tree.Relabel

/-!
# Accepting — every derivation is found in a text that is cut into its tokens

The text is cut as the parser would cut it. The parser then takes the way of the derivation: each
alternative that it tries before rejects the text, and each repetition ends where the derivation
ends it. The trees agree in everything but the positions.

* `DerivesIdent.accepted`, `DerivesLoc.accepted` — names and locations.
* `DerivesExpr.opens` — what an expression starts with.
* `runs_accepted`, `sepBy_accepted` — repetitions and lists of what is accepted.
-/

namespace NameResolution.Grammar

open NameResolution.Grammar.Parser

variable {α : Type} {ctx : Context} {cs mid rest : List Char} {t : Token}
  {ts us : List Token}

/-! ## Lexemes -/

theorem symbol_accepted {s : List Char} (h : FoundCut [.symbol s] cs rest) :
    symbol s ctx cs = .matched () rest :=
  symbol_eq_matched.mpr h.single_inv.1

theorem keyword_accepted {k : Keyword} (h : FoundCut [.keyword k] cs rest) :
    keyword k ctx cs = .matched () rest :=
  keyword_eq_matched.mpr h.single_inv

/-- A truth value is read as its keyword. -/
theorem truth_accepted {pos : Position} {value : Bool} (h : FoundCut [.truth pos value] cs rest) :
    keyword (Token.truthWord value) ctx cs = .matched () rest :=
  keyword_eq_matched.mpr h.single_inv

/-- An identifier is read as itself, up to its position. -/
theorem DerivesIdent.accepted {id : Ident} (h : DerivesIdent ts id) (hCut : FoundCut ts cs rest)
    (ctx : Context) :
    ∃ id', ident ctx cs = .matched id' rest ∧ id'.unplaced = id.unplaced := by
  cases h with
  | @name pos word hName =>
    refine ⟨⟨ctx.locate (skipTrivia cs), word, none⟩, ?_, rfl⟩
    exact ident_eq_matched.mpr ⟨rfl, rfl, hName, hCut.single_inv⟩

/-! ## What an expression starts with -/

/-- The tokens start with a character of some kind. -/
def StartsWith (p : Char → Bool) (ts : List Token) : Prop :=
  ∃ t us c s, ts = t :: us ∧ t.chars = c :: s ∧ p c = true

/-- What some tokens start with does not depend on those behind them. -/
theorem StartsWith.append {p : Char → Bool} (h : StartsWith p ts) (us : List Token) :
    StartsWith p (ts ++ us) := by
  obtain ⟨t, vs, c, s, rfl, hChars, hStart⟩ := h
  exact ⟨t, vs ++ us, c, s, rfl, hChars, hStart⟩

/-- A condition on the first character may be weakened. -/
theorem StartsWith.mono {p q : Char → Bool} (h : StartsWith p ts)
    (hImp : ∀ c, p c = true → q c = true) : StartsWith q ts := by
  obtain ⟨t, us, c, s, hTokens, hChars, hStart⟩ := h
  exact ⟨t, us, c, s, hTokens, hChars, hImp c hStart⟩

/-- The first character of some tokens is ahead of them. -/
theorem StartsWith.ahead {bound : List Char → List Char → Token → Prop} {p : Char → Bool}
    (h : StartsWith p ts) (hCut : Cut bound ts cs rest) : ∃ c, ahead cs = some c ∧ p c = true := by
  obtain ⟨t, us, c, s, rfl, hChars, hStart⟩ := h
  refine ⟨c, ?_, hStart⟩
  rw [ahead_of_cut hCut, hChars]
  rfl

/-- A text does not start with a character that the tokens cannot start with. -/
theorem StartsWith.ahead_ne {bound : List Char → List Char → Token → Prop} {p : Char → Bool}
    {d : Char} (h : StartsWith p ts) (hCut : Cut bound ts cs rest) (hd : p d = false) :
    Grammar.ahead cs ≠ some d := by
  obtain ⟨c, hAhead, hStart⟩ := h.ahead hCut
  rw [hAhead]
  rintro hEq
  cases hEq
  rw [hd] at hStart
  cases hStart

/-- An identifier starts as names do. -/
theorem DerivesIdent.starts {id : Ident} (h : DerivesIdent ts id) : StartsWith isNameStart ts := by
  cases h with
  | @name pos word hName =>
    obtain ⟨⟨c, s, hWord, hStart⟩, -, -⟩ := isName_iff.mp hName
    exact ⟨_, [], c, s, rfl, hWord, hStart⟩

theorem DerivesLoc.starts {loc : Loc} (h : DerivesLoc ts loc) : StartsWith isNameStart ts := by
  induction h with
  | var hId => exact hId.starts
  | field _ _ ih => exact ih.append _

/-- The characters that an expression without signs starts with. -/
def startsPrimary (c : Char) : Bool :=
  isNameStart c || Text.isDecimalDigit c || c == '"' || c == '('

/-- The characters that an expression starts with. -/
def startsExpr (c : Char) : Bool :=
  startsPrimary c || c == '-' || c == '^'

/-- A primary expression can start with a name. -/
theorem startsPrimary_of_name {c : Char} (h : isNameStart c = true) : startsPrimary c = true := by
  simp [startsPrimary, h]

/-- A primary expression starts with a character of one of its choices. -/
theorem DerivesExpr.primary_opens {d : Dialect} {e : Expr} (h : DerivesExpr d .primary ts e) :
    StartsWith startsPrimary ts := by
  cases h with
  -- other rules of an expression are not of this level
  | tighter hNext _ => cases hNext
  | operation hOp _ _ _ => cases hOp
  | trueLit pos => exact ⟨_, [], 'T', _, rfl, rfl, by decide⟩
  | falseLit pos => exact ⟨_, [], 'F', _, rfl, rfl, by decide⟩
  | @intLit pos digits hForm _ =>
    obtain ⟨hSome, hAll⟩ := hForm
    obtain ⟨c, s, rfl⟩ := List.exists_cons_of_ne_nil hSome
    refine ⟨_, [], c, s, rfl, rfl, ?_⟩
    simp [startsPrimary, hAll c List.mem_cons_self]
  | @strLit pos literal hForm =>
    obtain ⟨s, hChars⟩ := string_quote hForm
    exact ⟨_, [], '"', s, rfl, hChars, by decide⟩
  | call hCallee _ _ _ _ =>
    exact (hCallee.starts.mono fun c => startsPrimary_of_name).append _
  | parenthesized _ => exact ⟨_, _, '(', [], rfl, rfl, by decide⟩
  | loc hLoc _ => exact hLoc.starts.mono fun c => startsPrimary_of_name

/-- An expression starts with a sign or as a primary expression does. -/
theorem DerivesExpr.opens {d : Dialect} {level : Level} {e : Expr} (h : DerivesExpr d level ts e) :
    StartsWith startsExpr ts := by
  -- signs aside, an expression starts like a primary one or like a name
  have hPrimary : ∀ {ts e}, DerivesExpr d .primary ts e → StartsWith startsExpr ts := by
    intro ts e h
    refine h.primary_opens.mono ?_
    intro c hc
    rw [startsExpr, hc]
    rfl
  have hName : ∀ c, isNameStart c = true → startsExpr c = true := by
    intro c hc
    rw [startsExpr, startsPrimary_of_name hc]
    rfl
  induction h with
  | tighter _ _ ih => exact ih
  | assign hTarget _ _ => exact (hTarget.starts.mono hName).append _
  | operation _ _ _ _ ihLeft _ => exact ihLeft.append _
  | comparison _ _ _ ihLeft _ => exact ihLeft.append _
  | sign hOp _ _ =>
    rcases List.mem_pair.mp hOp with rfl | rfl
    · exact ⟨_, _, '-', [], rfl, rfl, by decide⟩
    · exact ⟨_, _, '^', [], rfl, rfl, by decide⟩
  | trueLit pos => exact hPrimary (.trueLit pos)
  | falseLit pos => exact hPrimary (.falseLit pos)
  | intLit pos hForm hDigits => exact hPrimary (.intLit pos hForm hDigits)
  | strLit pos hForm => exact hPrimary (.strLit pos hForm)
  | call hCallee hOperand args hArgs hList _ =>
    exact hPrimary (.call hCallee hOperand args hArgs hList)
  | parenthesized hInner _ => exact hPrimary (.parenthesized hInner)
  | loc hLoc hOperand => exact hPrimary (.loc hLoc hOperand)

/-! ## Locations -/

/-- A location is read as its root and a run of fields. -/
theorem DerivesLoc.runs {loc : Loc} (h : DerivesLoc ts loc) (hCut : FoundCut ts cs rest)
    (ctx : Context) :
    ∃ first mid fields, ident ctx cs = .matched first mid ∧
      Runs (symbol [':'] >>= fun _ => ident) ctx mid fields rest ∧
      (fields.foldl Loc.field (.var first)).unplaced = loc.unplaced := by
  -- induction on the fields; each one is an item more behind the run
  induction h generalizing rest with
  | var hId =>
    obtain ⟨id', hIdent, hShape⟩ := hId.accepted hCut ctx
    refine ⟨id', rest, [], hIdent, .nil rest, ?_⟩
    rw [List.foldl_nil, Loc.unplaced_var, hShape, Loc.unplaced_var]
  | field hLeft hId ih =>
    obtain ⟨cs₁, hLeftCut, hCut⟩ := hCut.split
    obtain ⟨cs₂, hColon, hIdCut⟩ := hCut.uncons
    obtain ⟨first, mid, fields, hFirst, hRuns, hShape⟩ := ih hLeftCut
    obtain ⟨id', hIdent, hIdShape⟩ := hId.accepted hIdCut ctx
    refine ⟨first, mid, fields ++ [id'], hFirst, hRuns.snoc ?_ hCut.shorter, ?_⟩
    · rw [bind_of_matched (symbol_accepted hColon), hIdent]
    · rw [List.foldl_append, List.foldl_cons, List.foldl_nil, Loc.unplaced_field, hShape, hIdShape,
        Loc.unplaced_field]

/-- A location starts with its root, and a colon comes next if it goes on. Another root makes
another location. -/
theorem DerivesLoc.root {loc : Loc} (h : DerivesLoc ts loc) :
    ∃ us vs, ts = us ++ vs ∧ DerivesIdent us loc.root ∧
      (vs = [] ∨ ∃ ws, vs = .symbol [':'] :: ws) ∧
      ∀ us' id', DerivesIdent us' id' → ∃ loc', DerivesLoc (us' ++ vs) loc' ∧ loc'.root = id' := by
  induction h with
  | @var ts id hId =>
    refine ⟨ts, [], by simp, hId, .inl rfl, ?_⟩
    intro us' id' hId'
    exact ⟨.var id', by simpa using DerivesLoc.var hId', rfl⟩
  | @field _ ws _ id _ hId ih =>
    obtain ⟨us, vs, rfl, hRoot, hFields, hOther⟩ := ih
    refine ⟨us, vs ++ .symbol [':'] :: ws, by simp, hRoot, .inr ?_, ?_⟩
    · rcases hFields with rfl | ⟨ws', rfl⟩
      · exact ⟨ws, rfl⟩
      · exact ⟨ws' ++ .symbol [':'] :: ws, rfl⟩
    · intro us' id' hId'
      -- the other location carries the same fields
      obtain ⟨loc', hLoc', hRoot'⟩ := hOther us' id' hId'
      refine ⟨.field loc' id, ?_, hRoot'⟩
      rw [← List.append_assoc]
      exact .field hLoc' hId

theorem DerivesLoc.accepted {loc : Loc} (h : DerivesLoc ts loc) (hCut : FoundCut ts cs rest)
    (hColon : ahead rest ≠ some ':') (ctx : Context) :
    ∃ loc', location ctx cs = .matched loc' rest ∧ loc'.unplaced = loc.unplaced := by
  obtain ⟨first, mid, fields, hFirst, hRuns, hShape⟩ := h.runs hCut ctx
  -- the fields end where no colon is ahead
  have hStop : (symbol [':'] >>= fun _ => ident) ctx rest = .rejected :=
    bind_of_rejected (symbol_rejects hColon)
  refine ⟨_, ?_, hShape⟩
  rw [location, bind_of_matched hFirst, bind_of_matched (many_of_runs hRuns hStop)]
  rfl

/-! ## Repetitions and lists -/

section Lists

variable {β : Type} (p : Parser α) (shape : α → β) (follow : List Char → Prop)
  (ctx : Context) {rows : List (List Token × α)}

/-- Rows of tokens are read as a run where each row is read in front of what may follow it, and the
next row may follow. -/
theorem runs_accepted
    (hItem : ∀ row ∈ rows, ∀ cs rest, FoundCut row.1 cs rest → follow rest →
      ∃ x, p ctx cs = .matched x rest ∧ shape x = shape row.2)
    (hSome : ∀ row ∈ rows, row.1 ≠ [])
    (hStart : ∀ row ∈ rows, ∀ cs rest, FoundCut row.1 cs rest → follow cs)
    (hCut : FoundCut (rows.flatMap (·.1)) cs rest) (hFollow : follow rest) :
    ∃ xs, Runs p ctx cs xs rest ∧ xs.map shape = rows.map fun row => shape row.2 := by
  induction rows generalizing cs with
  | nil =>
    obtain rfl := hCut.eq_of_nil
    exact ⟨[], .nil cs, rfl⟩
  | cons row rows ih =>
    obtain ⟨mid, hRow, hRows⟩ := hCut.split
    have hNext : follow mid := by
      cases rows with
      | nil =>
        obtain rfl := hRows.eq_of_nil
        exact hFollow
      | cons row' rows =>
        obtain ⟨mid', hRow', -⟩ := hRows.split
        exact hStart row' (by simp) mid mid' hRow'
    obtain ⟨x, hRead, hShape⟩ := hItem row List.mem_cons_self cs mid hRow hNext
    obtain ⟨xs, hRuns, hShapes⟩ := ih (fun r hr => hItem r (List.mem_cons_of_mem _ hr))
      (fun r hr => hSome r (List.mem_cons_of_mem _ hr))
      (fun r hr => hStart r (List.mem_cons_of_mem _ hr)) hRows
    -- a row has a token, so reading it takes a character
    have hShorter : mid.length < cs.length := by
      have hLength : mid.length + row.1.length ≤ cs.length := hRow.length
      have hTokens := List.length_pos_iff.mpr (hSome row List.mem_cons_self)
      omega
    refine ⟨x :: xs, .cons hRead hShorter hRuns, ?_⟩
    rw [List.map_cons, List.map_cons, hShape, hShapes]

/-- Items behind commas are read as a run. -/
theorem commas_accepted
    (hItem : ∀ row ∈ rows, ∀ cs rest, FoundCut row.1 cs rest → follow rest →
      ∃ x, p ctx cs = .matched x rest ∧ shape x = shape row.2)
    (hComma : ∀ cs, ahead cs = some ',' → follow cs)
    (hCut : FoundCut (behindCommas (rows.map (·.1))) cs rest) (hFollow : follow rest) :
    ∃ xs, Runs (symbol [','] >>= fun _ => p) ctx cs xs rest ∧
      xs.map shape = rows.map fun row => shape row.2 := by
  -- the comma in front of an item is part of its row
  have hTokens : behindCommas (rows.map (·.1)) =
      (rows.map fun row => (.symbol [','] :: row.1, row.2)).flatMap (·.1) := by
    rw [behindCommas, List.flatMap_map, List.flatMap_map]
  rw [hTokens] at hCut
  have hShapes : (rows.map fun row => shape row.2) =
      (rows.map fun row => (Token.symbol [','] :: row.1, row.2)).map fun row => shape row.2 := by
    rw [List.map_map]
    rfl
  rw [hShapes]
  refine runs_accepted _ shape follow ctx ?_ ?_ ?_ hCut hFollow
  · intro row' hRow' cs rest hCut hFollow
    obtain ⟨row, hRow, rfl⟩ := List.mem_map.mp hRow'
    obtain ⟨mid, hSymbol, hRowCut⟩ := FoundCut.uncons hCut
    obtain ⟨x, hRead, hShape⟩ := hItem row hRow mid rest hRowCut hFollow
    exact ⟨x, by rw [bind_of_matched (symbol_accepted hSymbol), hRead], hShape⟩
  · intro row' hRow'
    obtain ⟨row, -, rfl⟩ := List.mem_map.mp hRow'
    exact List.cons_ne_nil _ _
  · intro row' hRow' cs rest hCut
    obtain ⟨row, -, rfl⟩ := List.mem_map.mp hRow'
    exact hComma cs (hCut.ahead)

/-- A list without a first item, all of whose items stand behind commas. -/
theorem sepBy_behind
    (hItem : ∀ row ∈ rows, ∀ cs rest, FoundCut row.1 cs rest → follow rest →
      ∃ x, p ctx cs = .matched x rest ∧ shape x = shape row.2)
    (hComma : ∀ cs, ahead cs = some ',' → follow cs)
    (hCut : FoundCut (behindCommas (rows.map (·.1))) cs rest) (hFollow : follow rest)
    (hFirst : p ctx cs = .rejected) (hNoComma : ahead rest ≠ some ',') :
    ∃ xs, sepBy p (symbol [',']) ctx cs = .matched xs rest ∧
      xs.map shape = rows.map fun row => shape row.2 := by
  -- without a comma ahead the list is at its end
  have hStop : (symbol [','] >>= fun _ => p) ctx rest = .rejected :=
    bind_of_rejected (symbol_rejects hNoComma)
  obtain ⟨xs, hRuns, hShapes⟩ := commas_accepted p shape follow ctx hItem hComma hCut hFollow
  refine ⟨xs, ?_, hShapes⟩
  rw [sepBy, bind_of_matched (optional_of_rejected hFirst),
    bind_of_matched (many_of_runs hRuns hStop)]
  rfl

/-- A list whose first item stands in front of the first comma. -/
theorem sepBy_between {row : List Token × α}
    (hItem : ∀ r ∈ row :: rows, ∀ cs rest, FoundCut r.1 cs rest → follow rest →
      ∃ x, p ctx cs = .matched x rest ∧ shape x = shape r.2)
    (hComma : ∀ cs, ahead cs = some ',' → follow cs)
    (hCut : FoundCut (row.1 ++ behindCommas (rows.map (·.1))) cs rest) (hFollow : follow rest)
    (hNoComma : ahead rest ≠ some ',') :
    ∃ xs, sepBy p (symbol [',']) ctx cs = .matched xs rest ∧
      xs.map shape = (row :: rows).map fun row => shape row.2 := by
  have hStop : (symbol [','] >>= fun _ => p) ctx rest = .rejected :=
    bind_of_rejected (symbol_rejects hNoComma)
  obtain ⟨mid, hFirst, hOthers⟩ := FoundCut.split hCut
  -- behind the first item comes a comma, or what follows the whole list
  have hNext : follow mid := by
    cases rows with
    | nil =>
      obtain rfl := hOthers.eq_of_nil
      exact hFollow
    | cons row' rows => exact hComma mid (hOthers.ahead)
  obtain ⟨x, hRead, hShape⟩ := hItem row List.mem_cons_self cs mid hFirst hNext
  obtain ⟨xs, hRuns, hShapes⟩ := commas_accepted p shape follow ctx
    (fun r hr => hItem r (List.mem_cons_of_mem _ hr)) hComma hOthers hFollow
  refine ⟨x :: xs, ?_, ?_⟩
  · rw [sepBy, bind_of_matched (optional_of_matched hRead),
      bind_of_matched (many_of_runs hRuns hStop)]
    rfl
  · rw [List.map_cons, List.map_cons, hShape, hShapes]

/-- A list is read with its first item in front of the first comma, or with all items behind
commas. -/
theorem sepBy_accepted {d : Dialect}
    (hItem : ∀ row ∈ rows, ∀ cs rest, FoundCut row.1 cs rest → follow rest →
      ∃ x, p ctx cs = .matched x rest ∧ shape x = shape row.2)
    (hComma : ∀ cs, ahead cs = some ',' → follow cs ∧ p ctx cs = .rejected)
    (hList : d.Listed (rows.map (·.1)) ts) (hCut : FoundCut ts cs rest) (hFollow : follow rest)
    (hEnd : p ctx rest = .rejected) (hNoComma : ahead rest ≠ some ',') :
    ∃ xs, sepBy p (symbol [',']) ctx cs = .matched xs rest ∧
      xs.map shape = rows.map fun row => shape row.2 := by
  have hCommaFollow : ∀ cs, ahead cs = some ',' → follow cs := fun cs h => (hComma cs h).1
  rcases hList with rfl | ⟨-, rfl⟩
  · cases rows with
    | nil =>
      -- no item at all: what ends the list is rejected as its first item
      refine sepBy_behind p shape follow ctx hItem hCommaFollow hCut hFollow ?_ hNoComma
      obtain rfl := hCut.eq_of_nil
      exact hEnd
    | cons row rows =>
      exact sepBy_between p shape follow ctx hItem hCommaFollow hCut hFollow hNoComma
  · refine sepBy_behind p shape follow ctx hItem hCommaFollow hCut hFollow ?_ hNoComma
    cases rows with
    | nil =>
      obtain rfl := hCut.eq_of_nil
      exact hEnd
    | cons row rows => exact (hComma cs (hCut.ahead)).2

end Lists

end NameResolution.Grammar
