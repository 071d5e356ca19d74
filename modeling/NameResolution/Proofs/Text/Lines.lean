import Mathlib.Data.List.Basic
import NameResolution.Text.Position

/-!
# Lines of a text — what a position says about it

A position is found by reading a text up to an offset. The lines of the text say the same without
an offset: a position names one of them, and a column inside it.

* `lines` — the text cut behind each of its line breaks.
* `Denotes`, `locate_denotes` — the place in the lines that a position names.
* `Position.Before`, `locate_before` — later places have later positions.
* `locate_front`, `locate_behind` — positions in a text that is put together from two.
* `positionBefore_eq_locate` — the position of a word, found from its end.
-/

namespace NameResolution

/-- The position comes first: in an earlier line, or in the same line further left. -/
def Position.Before (p q : Position) : Prop :=
  p.line < q.line ∨ p.line = q.line ∧ p.col < q.col

/-- The position as many lines further down, in the same column. -/
def Position.below (p : Position) (lineCount : Nat) : Position :=
  ⟨p.line + lineCount, p.col⟩

/-- The order of positions is transitive. -/
theorem Position.Before.trans {p q r : Position} (h : p.Before q) (h' : q.Before r) :
    p.Before r := by
  unfold Position.Before at *
  omega

/-- A position does not come before itself. -/
theorem Position.Before.ne {p q : Position} (h : p.Before q) : p ≠ q := by
  rintro rfl
  unfold Position.Before at h
  omega

namespace Text

/-! ## Lines -/

/-- The lines of a text, each with the break at its end. A carriage return and the line feed after
it are one break. -/
def lines : List Char → List (List Char)
  | [] => []
  | '\r' :: '\n' :: rest => ['\r', '\n'] :: lines rest
  | c :: rest =>
    if isLineBreak c then [c] :: lines rest
    else
      match lines rest with
      | [] => [[c]]
      | line :: below => (c :: line) :: below

theorem flatten_lines (text : List Char) : (lines text).flatten = text := by
  fun_induction lines text with
  | case1 => rfl
  | case2 rest ih => rw [List.flatten_cons, ih]; rfl
  | case3 c rest hPair hBreak ih => rw [List.flatten_cons, ih]; rfl
  -- the last line has no line end
  | case4 c rest hPair hBreak hNone ih =>
    rw [hNone] at ih
    rw [← ih]
    rfl
  | case5 c rest hPair hBreak line below hSome ih =>
    rw [hSome] at ih
    rw [← ih]
    rfl

/-- The position `p` of a text, counted in lines and columns from 1, names the place at which
`rest` is left to read. -/
def Denotes (text : List Char) (p : Position) (rest : List Char) : Prop :=
  ∃ above left right below, lines text = above ++ (left ++ right) :: below ∧ right ≠ [] ∧
    p = ⟨above.length + 1, left.length + 1⟩ ∧ rest = right ++ below.flatten

/-! ## Offsets -/

/-- The position behind the lines `above` and the characters `left` of the next line, in a text that
starts at `p`. -/
def placeBehind (p : Position) (above : List (List Char)) (left : List Char) : Position :=
  match above with
  | [] => ⟨p.line, p.col + left.length⟩
  | _ :: _ => ⟨p.line + above.length, left.length + 1⟩

@[simp] theorem positionFrom_zero (p : Position) (text : List Char) :
    positionFrom p text 0 = p := by
  cases text <;> rfl

/-- What `lines` cuts off as a line is what moves a position on to the next line. -/
theorem advance_of_break {c : Char} {rest : List Char} (p : Position)
    (hPair : ∀ below, c = '\r' → rest = '\n' :: below → False) (hBreak : isLineBreak c = true) :
    advance p c rest = ⟨p.line + 1, 1⟩ := by
  have hNoPair : (c == '\r' && rest.head? == some '\n') = false := by
    rw [Bool.and_eq_false_iff, beq_eq_false_iff_ne, beq_eq_false_iff_ne]
    by_contra hBoth
    rw [not_or, not_not, not_not] at hBoth
    obtain ⟨below, hRest⟩ := List.head?_eq_some_iff.mp hBoth.2
    exact hPair below hBoth.1 hRest
  rw [advance, endsLine, hBreak, hNoPair]
  rfl

/-- Inside a line the column grows by one. -/
theorem advance_of_inside {c : Char} {rest : List Char} (p : Position)
    (hBreak : isLineBreak c = false) : advance p c rest = ⟨p.line, p.col + 1⟩ := by
  rw [advance, endsLine, hBreak]
  rfl

/-- In a text that starts at `p`, the offset `n` lies in one of the rows; its position counts the
rows above and the characters to the left. -/
def Places (p : Position) (rows : List (List Char)) (text : List Char) (n : Nat) : Prop :=
  ∃ above left right below, rows = above ++ (left ++ right) :: below ∧ right ≠ [] ∧
    positionFrom p text n = placeBehind p above left ∧ text.drop n = right ++ below.flatten

/-- The first row begins where the text does. -/
theorem places_zero (p : Position) {text row : List Char} {below : List (List Char)}
    (hText : (row :: below).flatten = text) (hSome : row ≠ []) :
    Places p (row :: below) text 0 := by
  refine ⟨[], [], row, below, rfl, hSome, ?_, ?_⟩
  · simp [placeBehind]
  · rw [List.drop_zero, ← hText, List.flatten_cons]

/-- An offset behind a whole row. -/
theorem places_below {p : Position} {rows : List (List Char)} {row text rest : List Char}
    {n m : Nat} (h : Places ⟨p.line + 1, 1⟩ rows rest n)
    (hRead : positionFrom p text m = positionFrom ⟨p.line + 1, 1⟩ rest n)
    (hDrop : text.drop m = rest.drop n) : Places p (row :: rows) text m := by
  obtain ⟨above, left, right, below, hRows, hSome, hPos, hRest⟩ := h
  refine ⟨row :: above, left, right, below, by rw [hRows]; rfl, hSome, ?_, hDrop.trans hRest⟩
  rw [hRead, hPos]
  cases above <;> simp [placeBehind] <;> omega

/-- Every offset of a text lies in one of its lines. -/
theorem positionFrom_places (p : Position) (text : List Char) {n : Nat} (h : n < text.length) :
    Places p (lines text) text n := by
  fun_induction lines text generalizing p n with
  | case1 => exact absurd h (Nat.not_lt_zero n)
  | case2 rest ih =>
    match n with
    | 0 => exact places_zero p (by simp [flatten_lines]) (by simp)
    | 1 =>
      refine ⟨[], ['\r'], ['\n'], lines rest, rfl, by simp, rfl, ?_⟩
      simp [flatten_lines]
    | n + 2 =>
      -- only the line feed of the pair ends the line
      have hBelow := ih ⟨p.line + 1, 1⟩ (by simpa using h)
      exact places_below hBelow rfl rfl
  | case3 c rest hPair hBreak ih =>
    cases n with
    | zero => exact places_zero p (by simp [flatten_lines]) (by simp)
    | succ n =>
      have hBelow := ih ⟨p.line + 1, 1⟩ (by simpa using h)
      refine places_below hBelow ?_ rfl
      rw [positionFrom, advance_of_break p hPair hBreak]
  | case4 c rest hPair hBreak hNone ih =>
    -- the last line, and its last character
    have hEnd : rest = [] := by rw [← flatten_lines rest, hNone]; rfl
    subst hEnd
    have hFirst : n = 0 := by simpa using h
    subst hFirst
    exact places_zero p rfl (by simp)
  | case5 c rest hPair hBreak line below hSome ih =>
    cases n with
    | zero =>
      refine places_zero p ?_ (by simp)
      rw [List.flatten_cons, List.cons_append, ← List.flatten_cons, ← hSome, flatten_lines]
    | succ n =>
      obtain ⟨above, left, right, below', hLines, hRight, hPos, hRest⟩ :=
        ih ⟨p.line, p.col + 1⟩ (by simpa using h)
      rw [hSome] at hLines
      have hStep : advance p c rest = ⟨p.line, p.col + 1⟩ :=
        advance_of_inside p (by simpa using hBreak)
      -- the character belongs to the line that follows it, whichever the offset is in
      cases above with
      | nil =>
        obtain ⟨rfl, rfl⟩ := List.cons.inj hLines
        refine ⟨[], c :: left, right, below, rfl, hRight, ?_, hRest⟩
        rw [positionFrom, hStep, hPos]
        simp [placeBehind]
        omega
      | cons first above =>
        obtain ⟨rfl, rfl⟩ := List.cons.inj hLines
        refine ⟨(c :: line) :: above, left, right, below', rfl, hRight, ?_, hRest⟩
        rw [positionFrom, hStep, hPos]
        simp [placeBehind]

/-! ## Endings of a text -/

/-- The position of an ending of the text names the place at which the ending begins. -/
theorem locate_denotes {text rest : List Char} (hEnding : rest <:+ text) (hSome : rest ≠ []) :
    Denotes text (locate text rest) rest := by
  obtain ⟨before, rfl⟩ := hEnding
  have hOffset : (before ++ rest).length - rest.length = before.length := by simp
  have hInside : before.length < (before ++ rest).length := by
    rw [List.length_append]
    exact Nat.lt_add_of_pos_right (List.length_pos_iff.mpr hSome)
  -- the place is somewhere in a line, so the text is cut there
  obtain ⟨above, left, right, below, hLines, hRight, hPos, hRest⟩ :=
    positionFrom_places ⟨1, 1⟩ (before ++ rest) hInside
  refine ⟨above, left, right, below, hLines, hRight, ?_, ?_⟩
  · rw [locate, positionAt, hOffset, hPos]
    cases above <;> simp [placeBehind] <;> omega
  · rw [← hRest, List.drop_left]

/-- The position behind a character comes after that of the character. -/
theorem before_advance (p : Position) (c : Char) (rest : List Char) :
    p.Before (advance p c rest) := by
  unfold advance Position.Before
  split
  · left
    show p.line < p.line + 1
    omega
  · right
    refine ⟨rfl, ?_⟩
    show p.col < p.col + 1
    omega

/-- Reading on never leads back. -/
theorem positionFrom_before (p : Position) {text : List Char} {n m : Nat} (hLess : n < m)
    (hInside : m ≤ text.length) : (positionFrom p text n).Before (positionFrom p text m) := by
  induction text generalizing p n m with
  | nil => exact absurd (Nat.lt_of_lt_of_le hLess hInside) (Nat.not_lt_zero n)
  | cons c rest ih =>
    obtain ⟨m, rfl⟩ := Nat.exists_eq_succ_of_ne_zero (Nat.ne_zero_of_lt hLess)
    have hRest : m ≤ rest.length := by simpa using hInside
    rw [Nat.succ_eq_add_one, positionFrom]
    cases n with
    | succ n => exact ih _ (by omega) hRest
    | zero =>
      -- one character leads on, and so do all others behind it
      rw [positionFrom_zero]
      cases m with
      | zero =>
        rw [positionFrom_zero]
        exact before_advance p c rest
      | succ m =>
        have hOn := ih (advance p c rest) (Nat.succ_pos m) hRest
        rw [positionFrom_zero] at hOn
        exact (before_advance p c rest).trans hOn

/-- Of two endings, the longer one begins first. -/
theorem locate_before {text rest rest' : List Char} (hInside : rest.length ≤ text.length)
    (hLess : rest'.length < rest.length) : (locate text rest).Before (locate text rest') :=
  positionFrom_before ⟨1, 1⟩ (by omega) (Nat.sub_le _ _)

/-- Endings that begin at one position are one ending. -/
theorem locate_inj {text rest rest' : List Char} (hEnding : rest <:+ text)
    (hEnding' : rest' <:+ text) (hSame : locate text rest = locate text rest') : rest = rest' := by
  rcases Nat.lt_trichotomy rest.length rest'.length with hLess | hEqual | hLess
  · exact absurd hSame.symm (locate_before hEnding'.length_le hLess).ne
  · exact (List.suffix_of_suffix_length_le hEnding hEnding'
      (Nat.le_of_eq hEqual)).eq_of_length hEqual
  · exact absurd hSame (locate_before hEnding.length_le hLess).ne

/-! ## Texts put together -/

/-- Lines above the text move every position down by as many. -/
theorem advance_below (p : Position) (n : Nat) (c : Char) (rest : List Char) :
    advance (p.below n) c rest = (advance p c rest).below n := by
  unfold advance
  split
  · simp only [Position.below, Position.mk.injEq, and_true]
    omega
  · rfl

/-- Walking over a text commutes with lines above it. -/
theorem positionFrom_below (p : Position) (lineCount : Nat) (text : List Char) (n : Nat) :
    positionFrom (p.below lineCount) text n = (positionFrom p text n).below lineCount := by
  induction text generalizing p n with
  | nil => rfl
  | cons c rest ih =>
    cases n with
    | zero => rfl
    | succ n => rw [positionFrom, advance_below, ih, positionFrom]

/-- What stands behind a text has nothing to do with the positions in it. -/
theorem positionFrom_front (p : Position) {text : List Char} (more : List Char) {n : Nat}
    (h : n < text.length) : positionFrom p (text ++ more) n = positionFrom p text n := by
  induction text generalizing p n with
  | nil => exact absurd h (Nat.not_lt_zero n)
  | cons c rest ih =>
    cases n with
    | zero => rfl
    | succ n =>
      have hInside : n < rest.length := by simpa using h
      obtain ⟨d, rest, rfl⟩ := List.exists_cons_of_length_pos (Nat.zero_lt_of_lt hInside)
      exact ih _ hInside

/-- One line more above some others. -/
theorem row_above (row : List Char) (p : Position) (rows : List (List Char)) :
    (⟨p.line + 1 + rows.length, 1⟩ : Position) = ⟨p.line + (row :: rows).length, 1⟩ := by
  simp only [List.length_cons, Position.mk.injEq, and_true]
  omega

/-- Behind some lines, the last of which ends with a line feed, a new line begins. -/
theorem positionFrom_behind (p : Position) {text : List Char} (more : List Char) (n : Nat)
    (hLast : ∀ c ∈ text.getLast?, c = '\n') (hFirst : text = [] → p.col = 1) :
    positionFrom p (text ++ more) (text.length + n) =
      positionFrom ⟨p.line + (lines text).length, 1⟩ more n := by
  fun_induction lines text generalizing p with
  | case1 =>
    obtain ⟨line, col⟩ := p
    obtain rfl : col = 1 := hFirst rfl
    simp
  | case2 rest ih =>
    have hRest : ∀ c ∈ rest.getLast?, c = '\n' := fun c hc => hLast c (by
      rw [List.getLast?_cons, List.getLast?_cons, hc]
      rfl)
    have hBelow := ih ⟨p.line + 1, 1⟩ hRest fun _ => rfl
    have hOffset : ('\r' :: '\n' :: rest).length + n = rest.length + n + 1 + 1 := by
      simp only [List.length_cons]
      omega
    rw [hOffset]
    exact hBelow.trans (congrArg (positionFrom · more n) (row_above _ p _))
  | case3 c rest hPair hBreak ih =>
    have hRest : ∀ d ∈ rest.getLast?, d = '\n' := fun d hd => hLast d (by
      rw [List.getLast?_cons, hd]
      rfl)
    -- a carriage return at the end of the text would not be a line feed
    have hNoPair : ∀ below, c = '\r' → rest ++ more = '\n' :: below → False := by
      rintro below rfl hText
      cases rest with
      | nil => exact absurd (hLast '\r' rfl) (by decide)
      | cons d rest =>
        obtain ⟨rfl, -⟩ := List.cons.inj hText
        exact hPair rest rfl rfl
    have hBelow := ih ⟨p.line + 1, 1⟩ hRest fun _ => rfl
    rw [List.length_cons, Nat.add_right_comm, List.cons_append, positionFrom,
      advance_of_break p hNoPair hBreak]
    exact hBelow.trans (congrArg (positionFrom · more n) (row_above _ p _))
  | case4 c rest hPair hBreak hNone ih =>
    -- the line feed at the end of the text is a break
    have hEnd : rest = [] := by rw [← flatten_lines rest, hNone]; rfl
    subst hEnd
    obtain rfl := hLast c rfl
    exact absurd rfl hBreak
  | case5 c rest hPair hBreak line below hSome ih =>
    have hRest : ∀ d ∈ rest.getLast?, d = '\n' := fun d hd => hLast d (by
      rw [List.getLast?_cons, hd]
      rfl)
    have hInside : rest ≠ [] := by
      rintro rfl
      cases hSome
    rw [List.length_cons, Nat.add_right_comm, List.cons_append, positionFrom,
      advance_of_inside p (by simpa using hBreak), ih _ hRest fun h => absurd h hInside, hSome]
    rfl

/-- More text behind does not move the positions in front of it. -/
theorem locate_front {text rest : List Char} (more : List Char) (hEnding : rest <:+ text)
    (hSome : rest ≠ []) : locate (text ++ more) (rest ++ more) = locate text rest := by
  have hLength := hEnding.length_le
  have hRest := List.length_pos_iff.mpr hSome
  have hOffset : (text ++ more).length - (rest ++ more).length = text.length - rest.length := by
    rw [List.length_append, List.length_append]
    omega
  rw [locate, locate, positionAt, positionAt, hOffset, positionFrom_front _ more (by omega)]

theorem locate_behind {text more rest : List Char} (hLast : text.getLast? = some '\n')
    (hEnding : rest <:+ more) :
    locate (text ++ more) rest = (locate more rest).below (lines text).length := by
  have hLength := hEnding.length_le
  have hOffset : (text ++ more).length - rest.length =
      text.length + (more.length - rest.length) := by
    rw [List.length_append]
    omega
  have hSome : text ≠ [] := by
    rintro rfl
    cases hLast
  rw [locate, locate, positionAt, positionAt, hOffset, positionFrom_behind _ more,
    ← positionFrom_below]
  -- the texts are cut right behind a line feed, so no pair of line-end characters is cut apart
  · rfl
  · intro c hc
    rw [hLast] at hc
    cases hc
    rfl
  · exact fun h => absurd h hSome

/-! ## Words found from their ends -/

/-- An offset of a character of the text has the position of that character. -/
theorem positionOf_inside {text : List Char} {n : Nat} (h : n < text.length) :
    positionOf text n = .ok (positionAt text n) := by
  have hSome : text.isEmpty = false := List.isEmpty_eq_false_iff_exists_mem.mpr
    ⟨text[n], List.getElem_mem h⟩
  -- an offset of a character is neither below zero nor beyond the last character
  have hBack : ¬ (n : Int) < -((text.length : Int) + 1) := by omega
  have hInRange : (text.isEmpty || decide ((n : Int) < -((text.length : Int) + 1))) = false := by
    rw [hSome, decide_eq_false hBack]
    rfl
  have hLast : min n (text.length - 1) = n := by omega
  simp only [positionOf, hInRange, Bool.false_eq_true, if_false, Int.natCast_nonneg, if_true,
    Int.toNat_natCast, hLast]

/-- Counted back from its end, a word stands where it is read. Whoever has read it may have begun
in front of it, at the trivia before it. -/
theorem positionBefore_eq_locate {text word rest : List Char} {start : Int}
    (hEnding : word ++ rest <:+ text) (hSome : word ≠ [])
    (hStart : start ≤ text.length - (word ++ rest).length) :
    positionBefore text start (text.length - rest.length) word.length =
      .ok (locate text (word ++ rest)) := by
  have hInside := hEnding.length_le
  have hWord := List.length_pos_iff.mpr hSome
  rw [List.length_append] at hInside hStart
  -- the word does not begin before the place where its reading began
  have hFirst : max ((text.length : Int) - rest.length - word.length) start =
      ((text.length - (word ++ rest).length : Nat) : Int) := by
    rw [List.length_append]
    omega
  rw [positionBefore, hFirst, positionOf_inside, locate]
  rw [List.length_append]
  omega

end Text

end NameResolution
