import NameResolution.Proofs.Grammar.Soundness
import NameResolution.Proofs.Text.Lines

/-!
# Positions — every node stands where its text begins

The reader finds each token behind some trivia and notes the position of its first character. The
names and literals of a tree carry these positions, in the order of the tokens.

* `Mark.Begins` — a text begins with what a name or a literal is written as.
* `positions_backwards` — the same positions are found from the ends of the words.
* `positions_point_at_text` — in the lines of an accepted text, each position names the place of
  its node, and later nodes have later positions.
-/

namespace NameResolution

/-- The text begins with the name or the literal, read as far as it goes. -/
def Mark.Begins (rest : List Char) : Mark → Prop
  | name id => rest.takeWhile Grammar.isNameChar = id.name.toList
  | truth _ value => (Grammar.Token.truthWord value).chars <+: rest
  | number _ value =>
    rest.takeWhile Text.isDecimalDigit ≠ [] ∧
      Text.decimalValue (rest.takeWhile Text.isDecimalDigit) = value
  | string _ literal => literal.toList <+: rest
  | operator _ => False

namespace Grammar

variable {limit : Nat} {ts : List Token} {t : Token} {text cs rest : List Char}

/-! ## Tokens -/

/-- The mark of a token has the position that the token has noted. -/
theorem Token.bind_pos (t : Token) : t.mark?.bind Mark.pos? = t.pos? := by
  cases t with
  | symbol s =>
    rw [mark?]
    split <;> rfl
  | keyword | truth | name | number | string => rfl

/-- What a token becomes is what the text begins with at the token. -/
theorem Token.Read.begins {mark : Mark} {pos : Position} (h : t.Read limit rest)
    (hForm : t.WellFormed) (hMark : t.mark? = some mark) (hPos : t.pos? = some pos) :
    mark.Begins (t.chars ++ rest) := by
  cases t with
  | keyword | symbol => cases hPos
  | truth pos value =>
    cases hMark
    exact List.prefix_append _ rest
  | name pos word =>
    cases hMark
    exact (takeWhile_append_stop (isName_iff.mp hForm).2.1 h).1
  | number pos digits =>
    cases hMark
    -- the number ends where its digits do, so they are found again as a whole
    have hDigits := (takeWhile_append_stop hForm.2 h.1).1
    show (digits ++ rest).takeWhile Text.isDecimalDigit ≠ [] ∧
      ((Text.decimalValue ((digits ++ rest).takeWhile Text.isDecimalDigit) : Nat) : Int) =
        Text.decimalValue digits
    rw [hDigits]
    exact ⟨hForm.1, rfl⟩
  | string pos literal =>
    cases hMark
    exact List.prefix_append _ rest

/-- The positions of a tree are those that its tokens have noted. Tokens without a mark have
none. -/
theorem DerivesProgram.positions {dialect : Dialect} {p : Program}
    (h : DerivesProgram dialect ts p) : p.positions = ts.filterMap Token.pos? := by
  rw [Program.positions, ← h.marks, marksOf, List.filterMap_filterMap]
  exact List.filterMap_congr fun t _ => t.bind_pos

/-- Behind the trivia, an end of the text is left. -/
theorem skipTrivia_suffix (cs : List Char) : skipTrivia cs <:+ cs := by
  obtain ⟨gap, -, hText | ⟨hNone, -⟩⟩ := skipTrivia_gap cs
  · exact ⟨gap, hText.symm⟩
  · rw [hNone]
    exact List.nil_suffix

/-! ## Cuts -/

/-- At each token that a reader finds, the text begins with what the token becomes. -/
theorem ReadCut.begins (h : ReadCut (contextOf limit text) ts cs rest) (hForm : Formed ts)
    (hEnding : cs <:+ text) :
    ∀ t ∈ ts, ∀ mark ∈ t.mark?, ∀ pos ∈ t.pos?,
      ∃ rest, Text.Denotes text pos rest ∧ mark.Begins rest := by
  induction h with
  | nil => simp
  | @cons t ts cs mid rest hText hSome hBound _ ih =>
    obtain ⟨hFirst, hOthers⟩ := List.forall_mem_cons.mp hForm
    have hStart : skipTrivia cs <:+ text := (skipTrivia_suffix cs).trans hEnding
    -- what is behind the token is an end of the text, too, and the induction goes on there
    have hMid : mid <:+ skipTrivia cs := ⟨t.chars, hText.symm⟩
    refine List.forall_mem_cons.mpr ⟨?_, ih hOthers (hMid.trans hStart)⟩
    intro mark hMark pos hPos
    rw [hBound.2 pos hPos]
    refine ⟨skipTrivia cs, Text.locate_denotes hStart ?_, ?_⟩
    · rw [hText]
      simp [hSome]
    · rw [hText]
      exact hBound.1.begins hFirst hMark hPos

/-- The position is that of a place that is not in front of `cs`. -/
def NotBefore (text cs : List Char) (pos : Position) : Prop :=
  ∃ start : List Char, start.length ≤ cs.length ∧ pos = Text.locate text start

/-- A reader at `cs` notes positions from there on, each behind the one before. -/
theorem ReadCut.ordered (h : ReadCut (contextOf limit text) ts cs rest)
    (hEnding : cs <:+ text) :
    (∀ pos ∈ ts.filterMap Token.pos?, NotBefore text cs pos) ∧
      (ts.filterMap Token.pos?).Pairwise Position.Before := by
  -- the bound on the positions is what carries the induction
  induction h with
  | nil => simp
  | @cons t ts cs mid rest hText hSome hBound _ ih =>
    have hStart : skipTrivia cs <:+ text := (skipTrivia_suffix cs).trans hEnding
    have hMid : mid <:+ skipTrivia cs := ⟨t.chars, hText.symm⟩
    obtain ⟨hBehind, hOrder⟩ := ih (hMid.trans hStart)
    have hTrivia := skipTrivia_length cs
    have hShorter : mid.length < (skipTrivia cs).length := by
      rw [hText, List.length_append]
      have hChars := List.length_pos_iff.mpr hSome
      omega
    have hOn : ∀ pos ∈ ts.filterMap Token.pos?, NotBefore text cs pos := by
      intro pos hPos
      obtain ⟨start, hLength, hLocate⟩ := hBehind pos hPos
      exact ⟨start, by omega, hLocate⟩
    cases hPos : t.pos? with
    | none =>
      rw [List.filterMap_cons_none hPos]
      exact ⟨hOn, hOrder⟩
    | some pos =>
      have hHere : pos = Text.locate text (skipTrivia cs) := hBound.2 pos hPos
      rw [List.filterMap_cons_some hPos, List.forall_mem_cons, List.pairwise_cons]
      refine ⟨⟨⟨skipTrivia cs, hTrivia, hHere⟩, hOn⟩, ?_, hOrder⟩
      -- all others are found behind the token
      intro later hLater
      obtain ⟨start, hLength, hLocate⟩ := hBehind later hLater
      rw [hHere, hLocate]
      exact Text.locate_before hStart.length_le (Nat.lt_of_le_of_lt hLength hShorter)

/-- The place of a word that a reader at `start` has found in front of `rest`, as it is found from
the end of the word: so many characters back, but not in front of where the reader began. -/
def Backwards (text start : List Char) (word : List Char) (rest : List Char) :
    Except Text.PositionError Position :=
  Text.positionBefore text (text.length - start.length) (text.length - rest.length) word.length

/-- A leaf notes its position before its word is read. From the end of the word the same position
is found. -/
theorem here_backwards {word : List Char} (hEnding : cs <:+ text)
    (hText : skipTrivia cs = word ++ rest) (hSome : word ≠ []) :
    ∃ pos, here (contextOf limit text) cs = .matched pos cs ∧
      Backwards text cs word rest = .ok pos := by
  refine ⟨Text.locate text (word ++ rest), ?_, ?_⟩
  · rw [here, hText]
  · have hStart : word ++ rest <:+ cs := hText ▸ skipTrivia_suffix cs
    refine Text.positionBefore_eq_locate (hStart.trans hEnding) hSome ?_
    have hShorter := hStart.length_le
    omega

/-- Each token of a reader stands where it is found from its end. -/
theorem ReadCut.backwards (h : ReadCut (contextOf limit text) ts cs rest)
    (hEnding : cs <:+ text) :
    ∀ t ∈ ts, ∀ pos ∈ t.pos?, ∃ start mid, t.chars ≠ [] ∧
      skipTrivia start = t.chars ++ mid ∧ Backwards text start t.chars mid = .ok pos := by
  induction h with
  | nil => simp
  | @cons t ts cs mid rest hText hSome hBound _ ih =>
    have hMid : mid <:+ cs := List.IsSuffix.trans ⟨t.chars, hText.symm⟩ (skipTrivia_suffix cs)
    refine List.forall_mem_cons.mpr ⟨fun pos hPos => ?_, ih (hMid.trans hEnding)⟩
    obtain ⟨found, hHere, hFound⟩ := here_backwards hEnding hText hSome
    -- the position that the token has noted is the one that `here` finds, and that one is tied to
    -- the end of the word
    obtain rfl : found = pos := (Outcome.matched.inj hHere).1.symm.trans (hBound.2 pos hPos).symm
    exact ⟨cs, mid, hSome, hText, hFound⟩

/-- In an accepted text, every position of the tree is what is found from the end of the word that
the node was read from. -/
theorem positions_backwards {source : String} {p : Program} (h : parse source = .ok p) :
    ∀ pos ∈ p.positions, ∃ start word rest, word ≠ [] ∧ skipTrivia start = word ++ rest ∧
      Backwards source.toList start word rest = .ok pos := by
  obtain ⟨ts, rest, hCut, -, hDerives⟩ := parse_reads h
  intro pos hPos
  rw [hDerives.positions] at hPos
  obtain ⟨t, ht, hToken⟩ := List.mem_filterMap.mp hPos
  obtain ⟨start, mid, hFound⟩ := ReadCut.backwards hCut (List.suffix_refl _) t ht pos hToken
  exact ⟨start, t.chars, mid, hFound⟩

/-- **Positions.** In the lines of an accepted text, the position of every name and literal of the
tree names the place at which the text of that node begins: its name, its word, its string, or the
digits of its number, as far as they go. From each node to the next one in the text, the positions
increase. -/
theorem positions_point_at_text {source : String} {p : Program} (h : parse source = .ok p) :
    (∀ mark ∈ p.marks, ∀ pos ∈ mark.pos?,
      ∃ rest, Text.Denotes source.toList pos rest ∧ mark.Begins rest) ∧
    p.positions.Pairwise Position.Before := by
  -- the reader cuts the text into the tokens of a derivation of the tree
  obtain ⟨ts, rest, hCut, -, hDerives⟩ := parse_reads h
  constructor
  · intro mark hMark pos hPos
    rw [← hDerives.marks] at hMark
    obtain ⟨t, ht, hToken⟩ := List.mem_filterMap.mp hMark
    -- the mark has the position of its token
    refine ReadCut.begins hCut hDerives.formed (List.suffix_refl _) t ht mark hToken pos ?_
    rw [← t.bind_pos, hToken]
    exact hPos
  · rw [hDerives.positions]
    exact (ReadCut.ordered hCut (List.suffix_refl _)).2

/-- Five lines that end in different ways, with a comment and with Arabic digits. -/
def brokenLines : String :=
  "# \u00e9\r\ninteger x.\r\u2028void f[] [\u0085disp <- x + \u0663\u0664 + f(\"a\", TRUE).]"

/-- The third line is empty, and the digits are a number of their own. -/
theorem brokenLines_positions :
    ∃ p, parse brokenLines = .ok p ∧
      p.positions = [⟨2, 9⟩, ⟨4, 6⟩, ⟨5, 9⟩, ⟨5, 13⟩, ⟨5, 18⟩, ⟨5, 20⟩, ⟨5, 25⟩] ∧
      (∀ mark ∈ p.marks, ∀ pos ∈ mark.pos?,
        ∃ rest, Text.Denotes brokenLines.toList pos rest ∧ mark.Begins rest) ∧
      p.positions.Pairwise Position.Before := by
  have hPositions : (parse brokenLines).toOption.map Program.positions =
      some [⟨2, 9⟩, ⟨4, 6⟩, ⟨5, 9⟩, ⟨5, 13⟩, ⟨5, 18⟩, ⟨5, 20⟩, ⟨5, 25⟩] := by
    decide +kernel
  obtain ⟨p, hRead, hList⟩ := exists_of_seen hPositions
  exact ⟨p, hRead, hList, positions_point_at_text hRead⟩

end Grammar

end NameResolution
