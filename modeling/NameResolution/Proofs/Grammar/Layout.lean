import NameResolution.Proofs.Grammar.Spelling

/-!
# Layout — a text as tokens with trivia between them

A reader skips trivia and takes a token, again and again. What it skips is nothing but white space
and comments: so an accepted text consists of its tokens and of trivia, and of nothing else.

* `Trivia`, `Ending` — what may stand in front of a token, and what may stand at the end.
* `LaidOut` — a text that consists of the given tokens.
* `laidOut_iff` — these are the texts that are cut into the tokens.
-/

namespace NameResolution.Grammar

variable {ts : List Token} {cs gap : List Char}

/-! ## Trivia -/

/-- White space and comments. -/
inductive Trivia : List Char → Prop where
  | nil : Trivia []
  | blank {c : Char} {cs : List Char} (hBlank : Text.isBlank c = true) (hRest : Trivia cs) :
    Trivia (c :: cs)
  /-- A comment goes up to a line feed. -/
  | comment {body cs : List Char} (hBody : '\n' ∉ body) (hRest : Trivia cs) :
    Trivia ('#' :: (body ++ '\n' :: cs))

/-- White space and comments at the end of a text, which may end the last comment, too. -/
inductive Ending : List Char → Prop where
  | trivia {cs : List Char} (h : Trivia cs) : Ending cs
  | comment {cs body : List Char} (h : Trivia cs) (hBody : '\n' ∉ body) :
    Ending (cs ++ '#' :: body)

/-- The text consists of the tokens, with trivia in front of each and at the end. -/
inductive LaidOut : List Token → List Char → Prop where
  | ending {cs : List Char} (hEnding : Ending cs) : LaidOut [] cs
  | token {t : Token} {ts : List Token} {gap cs : List Char} (hGap : Trivia gap)
      (hRest : LaidOut ts cs) : LaidOut (t :: ts) (gap ++ (t.chars ++ cs))

/-! ## What is skipped -/

/-- A comment ends at its line feed or with the text. -/
theorem comment_split (cs : List Char) :
    ('\n' ∉ cs ∧ skipTriviaFrom true cs = []) ∨
      ∃ body rest, '\n' ∉ body ∧ cs = body ++ '\n' :: rest ∧
        skipTriviaFrom true cs = skipTrivia rest := by
  induction cs with
  | nil => exact .inl ⟨by simp, rfl⟩
  | cons c cs ih =>
    by_cases hNewline : c = '\n'
    · subst hNewline
      exact .inr ⟨[], cs, by simp, rfl, rfl⟩
    · -- any other character belongs to the comment
      have hSkip : skipTriviaFrom true (c :: cs) = skipTriviaFrom true cs := by
        rw [skipTriviaFrom, if_pos rfl, bne_iff_ne.mpr hNewline]
      rw [hSkip]
      -- either the comment is open, or its line feed comes further on
      rcases ih with ⟨hNone, hEnd⟩ | ⟨body, rest, hBody, rfl, hRest⟩
      · exact .inl ⟨by simp [hNone, Ne.symm hNewline], hEnd⟩
      · exact .inr ⟨c :: body, rest, by simp [hBody, Ne.symm hNewline], rfl, hRest⟩

/-- What is skipped is trivia, or all that is left is skipped and a comment goes up to the end. -/
def Skips (cs : List Char) : Prop :=
  ∃ gap, Trivia gap ∧ (cs = gap ++ skipTrivia cs ∨
    skipTrivia cs = [] ∧ ∃ body, '\n' ∉ body ∧ cs = gap ++ '#' :: body)

/-- Something more in front that is skipped and is trivia. -/
theorem Skips.prepend {front : List Char} (h : Skips cs)
    (hTrivia : ∀ gap, Trivia gap → Trivia (front ++ gap))
    (hSkip : skipTrivia (front ++ cs) = skipTrivia cs) : Skips (front ++ cs) := by
  obtain ⟨gap, hGap, hCases⟩ := h
  refine ⟨front ++ gap, hTrivia gap hGap, ?_⟩
  rw [hSkip]
  rcases hCases with hText | ⟨hEnd, body, hBody, hText⟩
  · left
    rw [List.append_assoc, ← hText]
  · right
    refine ⟨hEnd, body, hBody, ?_⟩
    rw [List.append_assoc, ← hText]

/-- What is skipped in front of a text is trivia, or all of the text is skipped. -/
theorem skipTrivia_gap (cs : List Char) : Skips cs := by
  cases cs with
  | nil => exact ⟨[], .nil, .inl rfl⟩
  | cons c cs =>
    by_cases hComment : c = '#'
    · subst hComment
      have hSkip : skipTrivia ('#' :: cs) = skipTriviaFrom true cs := rfl
      rcases comment_split cs with ⟨hNone, hEnd⟩ | ⟨body, rest, hBody, hText, hRest⟩
      · exact ⟨[], .nil, .inr ⟨hSkip.trans hEnd, cs, hNone, rfl⟩⟩
      · have hShorter : rest.length < cs.length := by
          rw [hText, List.length_append, List.length_cons]
          omega
        -- the comment, up to its line feed
        have hFront : '#' :: cs = ('#' :: (body ++ ['\n'])) ++ rest := by
          rw [hText]
          simp
        rw [hFront] at hSkip ⊢
        refine (skipTrivia_gap rest).prepend (fun gap hGap => ?_) (hSkip.trans hRest)
        simpa using Trivia.comment hBody hGap
    · by_cases hBlank : Text.isBlank c = true
      · have hSkip : skipTrivia ([c] ++ cs) = skipTrivia cs := skipTrivia_of_blank hBlank
        exact (skipTrivia_gap cs).prepend (fun _ hGap => .blank hBlank hGap) hSkip
      · -- the text starts with a token
        have hStarts : startsToken c = true := by
          rw [startsToken, Bool.and_eq_true, bne_iff_ne, Bool.not_eq_true']
          exact ⟨hComment, by simpa using hBlank⟩
        refine ⟨[], .nil, .inl ?_⟩
        rw [skipTrivia_of_starts hStarts, List.nil_append]
termination_by cs.length
decreasing_by
  -- a text is shorter behind a comment and behind a blank
  · exact Nat.lt_succ_of_lt hShorter
  · exact Nat.lt_succ_self _

/-- Trivia is skipped, whatever follows it. -/
theorem Trivia.skip (hGap : Trivia gap) (cs : List Char) :
    skipTrivia (gap ++ cs) = skipTrivia cs := by
  induction hGap with
  | nil => rfl
  | blank hBlank _ ih => rw [List.cons_append, skipTrivia_of_blank hBlank, ih]
  | @comment body gap hBody _ ih =>
    rw [← ih]
    -- inside of a comment only its line feed counts
    have hInside : ∀ body : List Char, '\n' ∉ body →
        skipTriviaFrom true (body ++ '\n' :: (gap ++ cs)) = skipTrivia (gap ++ cs) := by
      intro body hBody
      induction body with
      | nil => rfl
      | cons c body ih =>
        rw [List.mem_cons, not_or] at hBody
        rw [List.cons_append, skipTriviaFrom, if_pos rfl, bne_iff_ne.mpr (Ne.symm hBody.1)]
        exact ih hBody.2
    rw [List.cons_append, List.append_assoc, List.cons_append]
    exact hInside body hBody

/-- At the end of a text all trivia is skipped. -/
theorem Ending.skip (h : Ending cs) : skipTrivia cs = [] := by
  cases h with
  | trivia h =>
    have hAll := h.skip []
    rw [List.append_nil] at hAll
    exact hAll
  | @comment gap body h hBody =>
    rw [h.skip]
    -- the comment has no line feed to end at
    rcases comment_split body with ⟨-, hEnd⟩ | ⟨inner, rest, -, rfl, -⟩
    · exact hEnd
    · exact absurd (List.mem_append_right inner List.mem_cons_self) hBody

/-- A text of which nothing is left is trivia and at most an open comment. -/
theorem ending_of_skipped (h : skipTrivia cs = []) : Ending cs := by
  obtain ⟨gap, hGap, hText | ⟨-, body, hBody, rfl⟩⟩ := skipTrivia_gap cs
  · rw [h, List.append_nil] at hText
    rw [hText]
    exact .trivia hGap
  · exact .comment hGap hBody

/-- In front of a token there is nothing but trivia. -/
theorem trivia_of_token {word rest : List Char} (hText : skipTrivia cs = word ++ rest)
    (hSome : word ≠ []) : ∃ gap, Trivia gap ∧ cs = gap ++ (word ++ rest) := by
  obtain ⟨gap, hGap, hGapText | ⟨hNothing, -⟩⟩ := skipTrivia_gap cs
  · exact ⟨gap, hGap, hText ▸ hGapText⟩
  -- something is left: the token
  · rw [hNothing] at hText
    exact absurd (List.append_eq_nil_iff.mp hText.symm).1 hSome

/-! ## Texts of tokens -/

/-- A text that is cut into tokens is laid out in them. -/
theorem Cut.laidOut {bound : List Char → List Char → Token → Prop} {rest : List Char}
    (h : Cut bound ts cs rest) (hEnd : skipTrivia rest = []) : LaidOut ts cs := by
  induction h with
  | nil => exact .ending (ending_of_skipped hEnd)
  | @cons t ts cs mid rest hText hSome _ _ ih =>
    obtain ⟨gap, hGap, rfl⟩ := trivia_of_token hText hSome
    exact .token hGap (ih hEnd)

/-- A text that is laid out in tokens is cut into them. -/
theorem LaidOut.cut (h : LaidOut ts cs) (hForm : Formed ts) :
    ∃ rest, Cut (fun _ _ _ => True) ts cs rest ∧ skipTrivia rest = [] := by
  induction h with
  | @ending cs hEnding => exact ⟨cs, .nil cs, hEnding.skip⟩
  | @token t ts gap cs hGap _ ih =>
    obtain ⟨hFirst, hOthers⟩ := List.forall_mem_cons.mp hForm
    obtain ⟨rest, hCut, hEnd⟩ := ih hOthers
    -- trivia ends where the token starts
    have hText : skipTrivia (gap ++ (t.chars ++ cs)) = t.chars ++ cs := by
      rw [hGap.skip, hFirst.skip]
    exact ⟨rest, .cons hText hFirst.ne_nil trivial hCut, hEnd⟩

/-- A text consists of tokens of the language exactly if it is cut into them up to some trivia. -/
theorem laidOut_iff (hForm : Formed ts) :
    LaidOut ts cs ↔ ∃ rest, Cut (fun _ _ _ => True) ts cs rest ∧ skipTrivia rest = [] :=
  ⟨fun h => h.cut hForm, fun ⟨_, hCut, hEnd⟩ => hCut.laidOut hEnd⟩

end NameResolution.Grammar
