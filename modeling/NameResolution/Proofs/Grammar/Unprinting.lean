import NameResolution.Proofs.Grammar.Reparsing
import NameResolution.Proofs.Grammar.Sentences

/-!
# Unprinting — a printed text and the only program that it shows

A printed text with field accesses is no program, so it cannot be read again. But it still shows its
tree. It is cut into its tokens in one way only, for its symbols stand apart; and once the
parentheses of the field accesses are taken away, these tokens are a sentence, which has one tree.

* `ClosedCut.unique` — neat tokens are determined by their text.
* `foldl_stripStep_unplaced` — parentheses are taken away wherever the tokens stand.
* `print_injective` — programs that are printed alike are the same, but for positions.
-/

namespace NameResolution.Grammar

variable {t u : Token} {ts us : List Token} {cs mid mid' rest rest' : List Char}

/-! ## Cuts into neat tokens -/

/-- The second character of a longer symbol is one that symbols go on with. -/
theorem joint_of_longer {s s' tail : List Char} {c : Char} (hKnown : s ∈ Token.punctuation)
    (hKnown' : s' ∈ Token.punctuation) (hLonger : s' = s ++ c :: tail) :
    (Token.symbol s).opens = true ∧ c ∈ joints := by
  -- looked up in the list of all symbols: those that another one goes on from
  have hAll : ∀ s ∈ Token.punctuation, ∀ s' ∈ Token.punctuation, s <+: s' → s ≠ s' →
      (Token.symbol s).opens = true ∧ (s'.drop s.length).head?.all joints.contains = true := by
    decide
  have hOther : s ≠ s' := by
    rintro rfl
    simp at hLonger
  obtain ⟨hOpens, hJoint⟩ := hAll s hKnown s' hKnown' ⟨c :: tail, hLonger.symm⟩ hOther
  rw [hLonger, List.drop_left, List.head?_cons, Option.all_some] at hJoint
  exact ⟨hOpens, List.contains_iff_mem.mp hJoint⟩

/-- No token is cut off a longer one where the tokens are closed and neat. -/
theorem Token.Closed.no_overlap (h : t.Closed mid) (ht : t.WellFormed) (hu : u.WellFormed)
    (hText : t.chars ++ mid = u.chars ++ mid')
    (hChain : (t :: ts).IsChain Token.StandsApart) : ¬ Overlap t u ts := by
  rintro ⟨c, ⟨tail, hChars⟩, hOn, v, vs, rfl, hNext⟩
  rw [hChars, List.append_assoc] at hText
  obtain rfl : mid = c :: (tail ++ mid') := List.append_cancel_left hText
  cases hOn with
  | word hKeyword =>
    -- no underscore follows a word
    have hEnd : isNameChar '_' = false := by
      cases t with
      | keyword | truth => exact (h '_' rfl).2
      | symbol | name | number | string => cases hKeyword
    exact absurd hEnd (by decide)
  | symbol s s' =>
    obtain ⟨hOpens, hJoint⟩ := joint_of_longer ht hu hChars
    have hApart := (List.isChain_cons_cons.mp hChain).1 hOpens
    rw [Token.joins, hNext, Option.any_some, ← Bool.not_eq_true, List.contains_iff_mem] at hApart
    exact hApart hJoint

/-- Tokens that stand apart are determined by their text, but for their positions. -/
theorem ClosedCut.unique (h : ClosedCut ts cs rest) (h' : ClosedCut us cs rest')
    (hProper : ∀ t ∈ ts, t.Proper) (hProper' : ∀ u ∈ us, u.Proper)
    (hChain : ts.IsChain Token.StandsApart) (hChain' : us.IsChain Token.StandsApart)
    (hEnd : skipTrivia rest = []) (hEnd' : skipTrivia rest' = []) :
    ts.map Token.unplaced = us.map Token.unplaced := by
  induction h generalizing us with
  | nil cs =>
    cases h' with
    | nil => rfl
    | cons hText hSome =>
      rw [hEnd] at hText
      exact absurd (List.append_eq_nil_iff.mp hText.symm).1 hSome
  | @cons t ts cs mid rest hText hSome hClosed hCut ih =>
    cases h' with
    | nil =>
      rw [hEnd'] at hText
      exact absurd (List.append_eq_nil_iff.mp hText.symm).1 hSome
    | @cons u us _ mid' _ hText' hSome' hClosed' hCut' =>
      obtain ⟨ht, hts⟩ := List.forall_mem_cons.mp hProper
      obtain ⟨hu, hus⟩ := List.forall_mem_cons.mp hProper'
      have hSame : t.chars ++ mid = u.chars ++ mid' := hText.symm.trans hText'
      have hCuts := cuts_compared (fun _ _ _ hClosed => hClosed.ended)
        (fun _ _ _ hClosed => hClosed.ended) (Cut.cons hText hSome hClosed hCut)
        (Cut.cons hText' hSome' hClosed' hCut') ht hu hEnd hEnd'
      rcases hCuts with hToken | hOverlap | hOverlap
      -- the same token on both sides, so the same characters, and the induction goes on behind them
      · have hChars : t.chars = u.chars := by
          rw [← t.unplaced_chars, hToken, u.unplaced_chars]
        rw [hChars] at hSame
        obtain rfl : mid = mid' := List.append_cancel_left hSame
        rw [List.map_cons, List.map_cons, hToken,
          ih hCut' hts hus hChain.tail hChain'.tail hEnd]
      -- a closed token is not the start of a longer one, if the tokens behind it stand apart
      · exact absurd hOverlap (hClosed.no_overlap ht.formed hu.formed hSame hChain)
      · exact absurd hOverlap (hClosed'.no_overlap hu.formed ht.formed hSame.symm hChain')

/-! ## Stripped tokens without positions -/

/-- A symbol has no position to forget. -/
theorem Token.unplaced_eq_symbol {s : List Char} : t.unplaced = .symbol s ↔ t = .symbol s := by
  cases t with
  | symbol => exact Iff.rfl
  | keyword | truth | name | number | string => exact ⟨nofun, nofun⟩

/-- Erasing a symbol and forgetting positions can change places. -/
theorem erase_unplaced (s : List Char) (ts : List Token) :
    (ts.map Token.unplaced).erase (.symbol s) = (ts.erase (.symbol s)).map Token.unplaced := by
  induction ts with
  | nil => rfl
  | cons t ts ih =>
    by_cases ht : t = .symbol s
    · subst ht
      exact (List.erase_cons_head ..).trans (congrArg _ (List.erase_cons_head ..).symm)
    · have ht' : t.unplaced ≠ .symbol s := fun h => ht (Token.unplaced_eq_symbol.mp h)
      rw [List.map_cons, List.erase_cons_tail (by simpa using ht'),
        List.erase_cons_tail (by simpa using ht), ih, List.map_cons]

/-- A step of stripping does not look at positions. -/
theorem stripStep_unplaced (read : List Token) (t : Token) :
    stripStep (read.map Token.unplaced) t.unplaced = (stripStep read t).map Token.unplaced := by
  have hHead : (read.map Token.unplaced).head? = some (.symbol [')']) ↔
      read.head? = some (.symbol [')']) := by
    cases read with
    | nil => simp
    | cons u read => simp [Token.unplaced_eq_symbol]
  simp only [stripStep, Token.unplaced_eq_symbol, hHead]
  split
  · rw [← List.map_tail, erase_unplaced, List.map_cons]
  · rw [List.map_cons]

/-- Parentheses are taken away wherever the tokens stand. -/
theorem foldl_stripStep_unplaced (read ts : List Token) :
    (ts.map Token.unplaced).foldl stripStep (read.map Token.unplaced) =
      (ts.foldl stripStep read).map Token.unplaced := by
  induction ts generalizing read with
  | nil => rfl
  | cons t ts ih => rw [List.map_cons, List.foldl_cons, stripStep_unplaced, ih, List.foldl_cons]

theorem Strips.unplaced_eq {access access' : Bool} {vs ws : List Token} (h : Strips access ts us)
    (h' : Strips access' vs ws) (hTokens : ts.map Token.unplaced = vs.map Token.unplaced) :
    us.map Token.unplaced = ws.map Token.unplaced := by
  have hRun := foldl_stripStep_unplaced [] ts
  have hRun' := foldl_stripStep_unplaced [] vs
  rw [h.run, List.append_nil, List.map_reverse] at hRun
  rw [h'.run, List.append_nil, List.map_reverse] at hRun'
  rw [hTokens] at hRun
  exact List.reverse_injective (hRun.symm.trans hRun')

/-! ## Trees of one text -/

/-- Sentences with the same words have the same tree. -/
theorem DerivesProgram.unplaced_eq {p q : Program} (h : DerivesProgram .ordered ts p)
    (h' : DerivesProgram .ordered us q) (hTokens : ts.map Token.unplaced = us.map Token.unplaced) :
    p.unplaced = q.unplaced := by
  have hWords : ∀ ts : List Token, ts.map (fun t => String.ofList t.chars) =
      (ts.map Token.unplaced).map fun t => String.ofList t.chars := by
    intro ts
    rw [List.map_map]
    exact List.map_congr_left fun t _ => congrArg String.ofList t.unplaced_chars.symm
  have hSpaced : spaced ts = spaced us := by
    rw [spaced, spaced, hWords ts, hWords us, hTokens]
  obtain ⟨p', hRead, hShape⟩ := parse_accepts h (spaced_cut h.formed) rfl
  obtain ⟨q', hRead', hShape'⟩ := parse_accepts h' (spaced_cut h'.formed) rfl
  -- one text is read in one way
  rw [hSpaced, hRead'] at hRead
  cases hRead
  rw [← hShape, hShape']

/-- The printed tokens are those of the language. -/
theorem Prints.proper {access : Bool} (h : Prints access ts us) (hProper : ∀ u ∈ us, u.Proper) :
    ∀ t ∈ ts, t.Proper := by
  have hParenthesis : ∀ s ∈ [['('], [')']], (Token.symbol s).Proper := by
    have hKnown : ∀ s ∈ [['('], [')']], s ∈ Token.punctuation := by decide
    exact fun s hs => ⟨hKnown s hs, nofun⟩
  intro t ht
  rcases h.shared t ht with hMem | rfl | rfl
  · exact hProper t hMem
  · exact hParenthesis _ (by simp)
  · exact hParenthesis _ (by simp)

/-- **Printing.** The plain text of a program shows the program: those that are printed alike are
the same, but for positions. -/
theorem print_injective {s t : String} {p q : Program} (h : parse s = .ok p) (h' : parse t = .ok q)
    (hText : p.print false = q.print false) : p.unplaced = q.unplaced := by
  obtain ⟨ts, rest, -, -, hDerives⟩ := parse_reads h
  obtain ⟨us, rest', -, -, hDerives'⟩ := parse_reads h'
  obtain ⟨vs, hPrints, hStripped⟩ := hDerives.stripped
  obtain ⟨ws, hPrints', hStripped'⟩ := hDerives'.stripped
  -- the one text is cut into the printed tokens of both programs
  obtain ⟨end₁, hCut, hEnd⟩ := hDerives.printed_cut
  obtain ⟨end₂, hCut', hEnd'⟩ := hDerives'.printed_cut
  rw [← hText] at hCut'
  have hTokens := hCut.unique hCut' (hPrints.proper hStripped.proper)
    (hPrints'.proper hStripped'.proper) hPrints.neat.chain hPrints'.neat.chain hEnd hEnd'
  exact hStripped.unplaced_eq hStripped' (hPrints.toStrips.unplaced_eq hPrints'.toStrips hTokens)

/-- Two texts with different parentheses and comments, and with a string that looks like code.
Neither printed text can be read again, for its colons are behind parentheses. -/
theorem access_chain_unprinted :
    ∃ p q, parse "void f[] [ a = (s:x:y) + \"#\\\"]\". ]" = .ok p ∧
      parse "void f[][a = s : x:y # ]\n+ (\"#\\\"]\").]" = .ok q ∧
      p.print false = "void f[] [\n    a = (((s):x):y + \"#\\\"]\").\n]\n\n" ∧
      p.print false = q.print false ∧ p.unplaced = q.unplaced := by
  have hSeen : readsAs "void f[] [ a = (s:x:y) + \"#\\\"]\". ]"
      "void f[] [\n    a = (((s):x):y + \"#\\\"]\").\n]\n\n" true = true := by
    decide +kernel
  have hSeen' : readsAs "void f[][a = s : x:y # ]\n+ (\"#\\\"]\").]"
      "void f[] [\n    a = (((s):x):y + \"#\\\"]\").\n]\n\n" true = true := by
    decide +kernel
  obtain ⟨p, hRead, hText, -⟩ := readsAs_iff.mp hSeen
  obtain ⟨q, hRead', hText', -⟩ := readsAs_iff.mp hSeen'
  have hSame : p.print false = q.print false := hText.trans hText'.symm
  exact ⟨p, q, hRead, hRead', hText, hSame, print_injective hRead hRead' hSame⟩

end NameResolution.Grammar
