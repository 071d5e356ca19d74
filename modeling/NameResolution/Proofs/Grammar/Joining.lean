import NameResolution.Proofs.Grammar.Comparing
import NameResolution.Proofs.Grammar.Relayout
import NameResolution.Proofs.Tree.Placed

/-!
# Joined texts — one program behind another

Two accepted texts with a line feed between them are one accepted text, and its tree has the
declarations of both. The tokens of each text are still found. That they are the only ones follows
from what they say: where a text could be cut in another way, the next name or operator would be
another one.

* `Overlap.marks_ne`, `SeenCut.unique` — the marks of a text determine how it is cut.
* `SeenCut.front`, `SeenCut.back` — the cuts of two texts in the joined one.
* `Program.below`, `joined_parses` — the tree of the joined text, with its positions.
-/

namespace NameResolution

/-! ## Trees further down -/

/-- The identifier as many lines further down. -/
def Ident.below (lineCount : Nat) (id : Ident) : Ident :=
  { id with pos := id.pos.below lineCount }

/-- The program as many lines further down, in the same columns. -/
def Program.below (lineCount : Nat) (p : Program) : Program :=
  p.relabel (fun pos => pos.below lineCount) (Ident.below lineCount)

namespace Grammar

variable {limit : Nat} {ctx : Context} {behind behind' : Bool} {t u : Token}
  {ts us : List Token} {cs mid text more rest rest' : List Char}

/-! ## Cuts that say the same -/

/-- A keyword does not start with an underscore, so a token that does is a name. -/
theorem Token.WellFormed.name_of_underscore (h : t.WellFormed) (hHead : t.chars.head? = some '_') :
    ∃ pos word, t = .name pos word ∧ word.toList.head? = some '_' := by
  -- only names can start with an underscore, and no keyword does
  have hKeyword : ∀ k : Keyword, k.chars.head? ≠ some '_' := by
    intro k
    cases k <;> decide
  obtain ⟨c, s, hChars, hShape⟩ := h.shape
  rw [hChars] at hHead
  cases hHead
  have hWord : t.shape = .word := by
    rw [← hShape]
    decide
  cases t with
  | keyword k => exact absurd (by rw [show k.chars = _ from hChars]; rfl) (hKeyword k)
  | truth pos value =>
    exact absurd (by rw [show (truthWord value).chars = _ from hChars]; rfl)
      (hKeyword (truthWord value))
  | name pos word => exact ⟨pos, word, rfl, by rw [show word.toList = _ from hChars]; rfl⟩
  | number | string | symbol => cases hWord

/-- Where one token of a cut is only the start of a token of another cut, the cuts go on with other
names or other operators. -/
theorem Overlap.marks_ne (h : Overlap t u ts) (ht : t.WellFormed) (hu : u.WellFormed)
    (hForm : Formed ts) :
    (marksOf (t :: ts)).map Mark.unplaced ≠ (marksOf (u :: us)).map Mark.unplaced := by
  obtain ⟨c, ⟨tail, hChars⟩, hOn, v, vs, rfl, hNext⟩ := h
  intro hSame
  cases hOn with
  | @word _ k hKeyword pos word =>
    rw [Token.keyword?_chars hKeyword] at hChars
    -- the name in the first cut starts with the underscore, the other one with the keyword
    obtain ⟨pos', word', rfl, hUnderscore⟩ :=
      (hForm v List.mem_cons_self).name_of_underscore hNext
    cases t with
    | truth => cases hSame
    | keyword k' =>
      have hWord : word' = word := (Ident.mk.inj (Mark.name.inj (List.cons.inj hSame).1)).2.1
      obtain ⟨d, s, hLetters, hLetter⟩ := k.exists_chars
      rw [hWord, show word.toList = _ from hChars, hLetters] at hUnderscore
      cases hUnderscore
      cases hLetter
    | symbol | name | number | string => cases hKeyword
  | symbol s s' =>
    -- all symbols that can be mistaken for others are operators
    have hMarked : ∀ s ∈ Token.punctuation, ∀ s' ∈ Token.punctuation, s <+: s' → s ≠ s' →
        s ∉ separators ∧ s' ∉ separators := by
      decide
    have hLonger : s ≠ s' := by
      rintro rfl
      simp [Token.chars] at hChars
    obtain ⟨hOperator, hOperator'⟩ := hMarked s ht s' hu ⟨c :: tail, hChars.symm⟩ hLonger
    rw [marksOf_operator hOperator, marksOf_operator hOperator'] at hSame
    have hText := Mark.operator.inj (List.cons.inj hSame).1
    exact hLonger (String.ofList_injective hText)

/-- A token at a place has no other position than that of the place. -/
theorem Token.eq_of_unplaced {place : Position} (h : t.unplaced = u.unplaced)
    (ht : ∀ pos ∈ t.pos?, pos = place) (hu : ∀ pos ∈ u.pos?, pos = place) : t = u := by
  cases t with
  -- the positions are what forgetting them leaves open, and both are the same place
  | keyword | symbol => cases u <;> first | exact h | cases h
  | truth pos value =>
    cases u with
    | truth pos' value' =>
      cases h
      rw [ht pos rfl, hu pos' rfl]
    | _ => cases h
  | name pos word =>
    cases u with
    | name pos' word' =>
      cases h
      rw [ht pos rfl, hu pos' rfl]
    | _ => cases h
  | number pos digits =>
    cases u with
    | number pos' digits' =>
      cases h
      rw [ht pos rfl, hu pos' rfl]
    | _ => cases h
  | string pos literal =>
    cases u with
    | string pos' literal' =>
      cases h
      rw [ht pos rfl, hu pos' rfl]
    | _ => cases h

/-- The marks of a text determine how it is cut. -/
theorem SeenCut.unique (h : SeenCut ctx behind ts cs rest)
    (h' : SeenCut ctx behind' us cs rest') (hProper : ∀ t ∈ ts, t.Proper)
    (hProper' : ∀ u ∈ us, u.Proper) (hEnd : skipTrivia rest = []) (hEnd' : skipTrivia rest' = [])
    (hMarks : (marksOf ts).map Mark.unplaced = (marksOf us).map Mark.unplaced) : ts = us := by
  induction h generalizing us behind' with
  | nil behind cs =>
    cases h' with
    | nil => rfl
    | cons hText hSome =>
      -- nothing but trivia is left, so no token stands in front
      rw [hEnd] at hText
      exact absurd (List.append_eq_nil_iff.mp hText.symm).1 hSome
  | @cons behind t ts cs mid rest hText hSome hBound hSingle hCut ih =>
    cases h' with
    | nil =>
      rw [hEnd'] at hText
      exact absurd (List.append_eq_nil_iff.mp hText.symm).1 hSome
    | @cons _ u us _ mid' _ hText' hSome' hBound' hSingle' hCut' =>
      obtain ⟨ht, hts⟩ := List.forall_mem_cons.mp hProper
      obtain ⟨hu, hus⟩ := List.forall_mem_cons.mp hProper'
      have hCuts := cuts_compared (fun _ _ _ hBound => hBound.1.ended)
        (fun _ _ _ hBound => hBound.1.ended) (SignedCut.cons hText hSome hBound hSingle hCut).cut
        (SignedCut.cons hText' hSome' hBound' hSingle' hCut').cut ht hu hEnd hEnd'
      -- either the first tokens agree, and the induction goes on behind them, or one of them goes
      -- on in the other; then the marks differ
      rcases hCuts with hToken | hOverlap | hOverlap
      · obtain rfl := Token.eq_of_unplaced hToken hBound.2 hBound'.2
        obtain rfl : mid = mid' := List.append_cancel_left (hText.symm.trans hText')
        have hOthers : (marksOf ts).map Mark.unplaced = (marksOf us).map Mark.unplaced := by
          rw [marksOf, marksOf, List.filterMap_cons, List.filterMap_cons] at hMarks
          -- the same first mark on both sides, or none on either
          cases hMark : t.mark? with
          | none =>
            rw [hMark] at hMarks
            exact hMarks
          | some mark =>
            rw [hMark] at hMarks
            exact (List.cons.inj hMarks).2
        rw [ih hCut' hts hus hEnd hOthers]
      · exact absurd hMarks
          (hOverlap.marks_ne ht.formed hu.formed fun v hv => (hts v hv).formed)
      · exact absurd hMarks.symm
          (hOverlap.marks_ne hu.formed ht.formed fun v hv => (hus v hv).formed)

/-! ## The cuts of two texts -/

/-- What a token may be in front of one text, it may be in front of any other in which it ends. -/
theorem Token.Read.of_ended {limit : Nat} (h : t.Read limit rest) (hEnded : t.Ended rest') :
    t.Read limit rest' := by
  cases t with
  | number => exact ⟨hEnded, h.2⟩
  | keyword | truth | name | symbol | string => exact hEnded

/-- The tokens of a text are found where a blank or a comment follows the text. -/
theorem SeenCut.front (h : SeenCut (contextOf limit text) behind ts cs rest) (hForm : Formed ts)
    (hEnding : cs <:+ text) (hMore : StartsTrivia more) :
    SeenCut (contextOf limit (text ++ more)) behind ts (cs ++ more) (rest ++ more) := by
  induction h with
  | nil behind cs => exact .nil behind (cs ++ more)
  | @cons behind t ts cs mid rest hText hSome hBound hSingle hCut ih =>
    obtain ⟨hToken, hOthers⟩ := List.forall_mem_cons.mp hForm
    obtain ⟨gap, hGap, hGapText⟩ := trivia_of_token hText hSome
    have hStart : t.chars ++ mid <:+ text := by
      rw [← hText]
      exact (skipTrivia_suffix cs).trans hEnding
    have hNewText : skipTrivia (cs ++ more) = t.chars ++ (mid ++ more) := by
      rw [hGapText, List.append_assoc, List.append_assoc, hGap.skip, hToken.skip]
    have hAlike : t.EndsAlike mid (mid ++ more) := by
      cases mid with
      | nil => exact ⟨fun _ => (hMore.ends t).1, fun hDouble => absurd hDouble (hMore.ends t).2⟩
      | cons d mid => exact ⟨fun hEnd => hEnd.of_head rfl, fun hDouble => hDouble.of_head rfl⟩
    refine .cons hNewText hSome ⟨hBound.1.of_ended (hAlike.1 hBound.1.ended), ?_⟩
      (fun hBehind hDouble => hSingle hBehind (hAlike.2 hDouble))
      (ih hOthers ((List.suffix_append t.chars mid).trans hStart))
    -- nothing of the text that follows is read in front of the token
    intro pos hPos
    show pos = Text.locate (text ++ more) (skipTrivia (cs ++ more))
    rw [hNewText, ← List.append_assoc, Text.locate_front more hStart (by simp [hSome]), ← hText]
    exact hBound.2 pos hPos

/-- The token as many lines further down. -/
def Token.below (lineCount : Nat) : Token → Token :=
  Token.relabel (fun pos => pos.below lineCount) (Ident.below lineCount)

/-- A token in further lines notes a position in further lines. -/
theorem Token.below_pos? (lineCount : Nat) (t : Token) :
    (t.below lineCount).pos? = t.pos?.map fun pos => pos.below lineCount := by
  cases t <;> rfl

/-- The tokens of a text are found behind some lines, as many lines further down. -/
theorem SeenCut.back (h : SeenCut (contextOf limit more) behind ts cs rest)
    (hEnding : cs <:+ more)
    (hLast : text.getLast? = some '\n') :
    SeenCut (contextOf limit (text ++ more)) behind
      (ts.map (Token.below (Text.lines text).length)) cs rest := by
  induction h with
  | nil behind cs => exact .nil behind cs
  | @cons behind t ts cs mid rest hText hSome hBound hSingle hCut ih =>
    have hStart : skipTrivia cs <:+ more := (skipTrivia_suffix cs).trans hEnding
    have hMid : mid <:+ more := by
      rw [hText] at hStart
      exact (List.suffix_append t.chars mid).trans hStart
    -- what a token is depends on its characters, and the shift leaves those alone
    have hRead : (t.below (Text.lines text).length).Read limit mid := by
      cases t <;> exact hBound.1
    have hNotDoubled : behind = true → ¬ (t.below (Text.lines text).length).Doubled mid := by
      cases t <;> exact hSingle
    have hChars : (t.below (Text.lines text).length).chars = t.chars := by
      cases t <;> rfl
    have hOperand : (t.below (Text.lines text).length).endsOperand = t.endsOperand := by
      cases t <;> rfl
    refine .cons (by rw [hChars, hText]) (by rw [hChars]; exact hSome) ⟨hRead, ?_⟩ hNotDoubled
      (by rw [hOperand]; exact ih hMid)
    intro pos hPos
    rw [Token.below_pos?] at hPos
    obtain ⟨place, hPlace, rfl⟩ := Option.map_eq_some_iff.mp hPos
    have hLocate : place = Text.locate more (skipTrivia cs) := hBound.2 place hPlace
    show _ = Text.locate (text ++ more) (skipTrivia cs)
    -- the position is counted in the whole text now: that many lines further down, and as far in
    -- its line
    rw [Text.locate_behind hLast hStart, ← hLocate]

/-- Only what stands behind the trivia counts. -/
theorem SeenCut.skipped (h : SeenCut ctx behind ts cs rest)
    (hTrivia : skipTrivia mid = skipTrivia cs) (hEnd : skipTrivia rest = []) :
    ∃ rest', SeenCut ctx behind ts mid rest' ∧ skipTrivia rest' = [] := by
  cases h with
  | nil => exact ⟨mid, .nil behind mid, hTrivia.trans hEnd⟩
  | cons hText hSome hBound hSingle hCut =>
    rw [← hTrivia] at hText hBound
    exact ⟨rest, .cons hText hSome hBound hSingle hCut, hEnd⟩

/-- A line feed ends what is left open at the end of a text. -/
theorem skipTrivia_ended (hEnd : skipTrivia rest = []) (cs : List Char) :
    skipTrivia (rest ++ '\n' :: cs) = skipTrivia cs := by
  cases ending_of_skipped hEnd with
  | trivia hTrivia => rw [hTrivia.skip, skipTrivia_of_blank (by decide)]
  | comment hTrivia hBody =>
    have hComment : Trivia ('#' :: (_ ++ '\n' :: [])) := .comment hBody .nil
    rw [List.append_assoc, hTrivia.skip]
    simpa using hComment.skip cs

/-! ## The joined text -/

/-- Tokens further down derive the tree further down. -/
theorem DerivesProgram.below {p : Program} (h : DerivesProgram .ordered ts p) (lineCount : Nat) :
    DerivesProgram .ordered (ts.map (Token.below lineCount)) (p.below lineCount) := by
  have hNames : KeepsNames (Ident.below lineCount) := fun _ hName hSymbol => ⟨hName, hSymbol⟩
  exact h.relabel _ hNames h.admitted

/-- Two programs behind each other are one program. -/
theorem DerivesProgram.append {d : Dialect} {p q : Program} (h : DerivesProgram d ts p)
    (h' : DerivesProgram d us q) : DerivesProgram d (ts ++ us) ⟨p.decls ++ q.decls⟩ := by
  obtain ⟨rows, hRows, rfl, hDecls⟩ := h
  obtain ⟨rows', hRows', rfl, hDecls'⟩ := h'
  refine ⟨rows ++ rows', List.forall_mem_append.mpr ⟨hRows, hRows'⟩, List.flatMap_append.symm, ?_⟩
  rw [List.map_append, ← hDecls, ← hDecls']

/-- A text is read as the tree of any cut that shows its positions. -/
theorem parseUpTo_located {source : String} {p : Program}
    (h : DerivesProgram (.orderedUpTo limit) ts p)
    (hCut : SeenCut (contextOf limit source.toList) behind ts source.toList rest)
    (hEnd : skipTrivia rest = []) : parseUpTo limit source = .ok p := by
  obtain ⟨q, hRead, hShape⟩ := parseUpTo_found h hCut.found.unsigned hEnd
  obtain ⟨us, rest', hSeen, hEnd', hDerives⟩ := parseUpTo_seen hRead
  have hShapeMarks : q.unplaced.marks = p.unplaced.marks := by rw [hShape]
  rw [Program.unplaced, Program.unplaced, Program.marks_relabel, Program.marks_relabel]
    at hShapeMarks
  -- the parser has found the same tokens, so it has found the same marks
  have hTokens : us = ts := by
    refine hSeen.unique hCut hDerives.proper h.proper hEnd' hEnd ?_
    rw [hDerives.marks, h.marks]
    exact hShapeMarks
  have hMarks : q.marks = p.marks := by
    rw [← hDerives.marks, ← h.marks, hTokens]
  rw [hRead, Program.eq_of_marks hShape hMarks]

/-- A cut of the whole source, with positions in it, is what the source is read as. -/
theorem parse_located {source : String} {p : Program} (h : DerivesProgram .ordered ts p)
    (hCut : SeenCut (contextOf maxDigits source.toList) behind ts source.toList rest)
    (hEnd : skipTrivia rest = []) : parse source = .ok p :=
  parseUpTo_located h hCut hEnd

/-- **Composition.** Two accepted texts with a line feed between them are an accepted text. Its tree
has the declarations of the first text, where they stand there, and behind them those of the second
one, further down by the lines of the first text with the line feed. -/
theorem joined_parses {s t : String} {p q : Program} (h : parse s = .ok p) (h' : parse t = .ok q) :
    parse (s ++ "\n" ++ t) =
      .ok ⟨p.decls ++ (q.below (Text.lines (s ++ "\n").toList).length).decls⟩ := by
  obtain ⟨ts, rest, hCut, hEnd, hDerives⟩ := parse_seen h
  obtain ⟨us, rest', hCut', hEnd', hDerives'⟩ := parse_seen h'
  have hFront : (s ++ "\n").toList = s.toList ++ ['\n'] := String.toList_append
  have hText : (s ++ "\n" ++ t).toList = s.toList ++ '\n' :: t.toList := by
    rw [String.toList_append, hFront, List.append_assoc]
    rfl
  have hFeed : StartsTrivia ('\n' :: t.toList) := ⟨'\n', rfl, by decide⟩
  have hFirst := hCut.front hDerives.formed (List.suffix_refl _) hFeed
  -- behind the line feed, the second text is cut as it is alone
  have hLast : (s ++ "\n").toList.getLast? = some '\n' := by
    rw [hFront]
    exact List.getLast?_concat
  have hSecond := hCut'.back (List.suffix_refl _) hLast
  obtain ⟨rest'', hSkipped, hEnd''⟩ := hSecond.skipped (skipTrivia_ended hEnd _) hEnd'
  rw [← String.toList_append, hText] at hSkipped
  have hJoined := SignedCut.append hFirst hSkipped
  rw [← hText] at hJoined
  exact parse_located (hDerives.append (hDerives'.below _)) hJoined hEnd''

/-- The comment at the end is still open, and its carriage return goes with the line feed. -/
theorem open_comment_joined :
    ∃ p q, parse "integer x. # x\r" = .ok p ∧ parse "\u2028boolean y." = .ok q ∧
      p.positions = [⟨1, 9⟩] ∧ q.positions = [⟨2, 9⟩] ∧
      Text.lines ("integer x. # x\r" ++ "\n").toList = ["integer x. # x\r\n".toList] ∧
      parse ("integer x. # x\r" ++ "\n" ++ "\u2028boolean y.") =
        .ok ⟨p.decls ++
          (q.below (Text.lines ("integer x. # x\r" ++ "\n").toList).length).decls⟩ := by
  have hFirst : (parse "integer x. # x\r").toOption.map Program.positions = some [⟨1, 9⟩] := by
    decide +kernel
  have hSecond : (parse "\u2028boolean y.").toOption.map Program.positions = some [⟨2, 9⟩] := by
    decide +kernel
  obtain ⟨p, hRead, hPlaces⟩ := exists_of_seen hFirst
  obtain ⟨q, hRead', hPlaces'⟩ := exists_of_seen hSecond
  exact ⟨p, q, hRead, hRead', hPlaces, hPlaces', by decide, joined_parses hRead hRead'⟩

end Grammar

end NameResolution
