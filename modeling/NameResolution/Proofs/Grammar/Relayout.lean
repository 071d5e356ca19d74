import NameResolution.Proofs.Grammar.Respelling
import NameResolution.Proofs.Grammar.Visible

/-!
# Other layout — runs of trivia exchanged

Between two tokens it is enough that there is some trivia: which white space it is and what its
comments say does not matter. A run of trivia starts outside of strings and comments. So it lies in
front of a token or behind one, and every token ends in front of it.

* `Region.after` — the region of a text in which what follows a piece of it stands.
* `TriviaRun` — a run of trivia between two pieces of a text.
* `FoundBehind.exchange` — the cut of a text in which one run stands for another.
* `layout_irrelevant` — the text with the other run is read as the same tree.
-/

namespace NameResolution.Grammar

variable {ts : List Token} {t : Token} {behind : Bool}
  {cs pre gap gap' post word mid old new rest : List Char}

/-! ## Regions -/

namespace Region

/-- The region behind a character. -/
def next : Region → Char → Region
  | .code, c => if c == '#' then .comment else if c == '"' then .string else .code
  | .comment, c => if c == '\n' then .code else .comment
  | .string, c => if c == '"' then .code else if c == '\\' then .escape else .string
  | .escape, _ => .string

/-- The region behind a piece of text. -/
def after (r : Region) (cs : List Char) : Region :=
  cs.foldl next r

/-- Where a text ends is found piece by piece. -/
theorem after_append (r : Region) (cs ds : List Char) :
    r.after (cs ++ ds) = (r.after cs).after ds :=
  List.foldl_append

theorem after_cons (r : Region) (c : Char) (cs : List Char) :
    r.after (c :: cs) = (r.next c).after cs := rfl

/-- Only a line feed ends a comment. -/
theorem after_comment (hBody : '\n' ∉ cs) : Region.comment.after cs = .comment := by
  induction cs with
  | nil => rfl
  | cons c cs ih =>
    rw [List.mem_cons, not_or] at hBody
    have hNext : Region.comment.next c = .comment := by
      simp [next, Ne.symm hBody.1]
    rw [after_cons, hNext, ih hBody.2]

/-- A word without quotes, and without what trivia starts with, stays in the code. -/
theorem after_plain (hPlain : ∀ c ∈ word, startsToken c = true ∧ c ≠ '"') :
    Region.code.after word = .code := by
  induction word with
  | nil => rfl
  | cons c word ih =>
    obtain ⟨⟨hStart, hQuote⟩, hOthers⟩ := List.forall_mem_cons.mp hPlain
    rw [startsToken, Bool.and_eq_true, bne_iff_ne] at hStart
    have hNext : Region.code.next c = .code := by
      simp [next, hStart.1, hQuote]
    rw [after_cons, hNext, ih hOthers]

/-- Behind a string there is code again, and nowhere before its end. -/
theorem after_stringBody {body : List Char} (h : scanStringBody cs = some (body, rest)) :
    Region.string.after body = .code ∧
      ∀ front more, body = front ++ more → more ≠ [] → Region.string.after front ≠ .code := by
  fun_induction scanStringBody cs generalizing body rest with
  | case1 => cases h
  | case2 cs =>
    cases h
    refine ⟨rfl, ?_⟩
    intro front more hBody hMore
    obtain ⟨rfl, -⟩ | ⟨-, rfl⟩ := List.singleton_eq_append_iff.mp hBody
    · decide
    · exact absurd rfl hMore
  | case3 c cs hNewline => cases h
  | case4 c cs hNewline ih =>
    obtain ⟨⟨inner, mid⟩, hInner, hResult⟩ := Option.map_eq_some_iff.mp h
    cases hResult
    obtain ⟨hEnd, hInside⟩ := ih hInner
    refine ⟨hEnd, ?_⟩
    -- behind a backslash the next character is part of the string, whatever it is
    rintro (_ | ⟨d, _ | ⟨e, front⟩⟩) more hBody hMore
    · decide
    · cases hBody
      decide
    · -- the escaped character leads back into the string
      cases hBody
      exact hInside front more rfl hMore
  | case5 c cs hQuote hEscape hStop => cases h
  | case6 c cs hQuote hEscape hStop ih =>
    obtain ⟨⟨inner, mid⟩, hInner, hResult⟩ := Option.map_eq_some_iff.mp h
    cases hResult
    obtain ⟨hEnd, hInside⟩ := ih hInner
    rw [Bool.or_eq_true, not_or] at hStop
    have hNext : Region.string.next c = .string := by
      have hNoQuote : c ≠ '"' := hQuote
      -- no quote and no backslash: the character stays in the string
      have hNoEscape : c ≠ '\\' := by simpa using hStop.2
      simp [next, hNoQuote, hNoEscape]
    refine ⟨by rw [after_cons, hNext, hEnd], ?_⟩
    rintro (_ | ⟨d, front⟩) more hBody hMore
    · decide
    · cases hBody
      rw [after_cons, hNext]
      exact hInside front more rfl hMore

end Region

/-- The piece of a text ends outside of strings and comments. -/
def Outside (pre : List Char) : Prop :=
  Region.code.after pre = .code

/-- Trivia ends outside of strings and comments. -/
theorem Trivia.outside (h : Trivia gap) : Outside gap := by
  induction h with
  | nil => rfl
  | @blank c cs hBlank _ ih =>
    have hComment : c ≠ '#' := by
      rintro rfl
      exact absurd hBlank (by decide)
    have hQuote : c ≠ '"' := by
      rintro rfl
      exact absurd hBlank (by decide)
    have hNext : Region.code.next c = .code := by
      simp [Region.next, hComment, hQuote]
    rw [Outside, Region.after_cons, hNext]
    exact ih
  | @comment body cs hBody _ ih =>
    -- a comment is left at its line feed, and nowhere before
    have hNext : Region.code.next '#' = .comment := rfl
    rw [Outside, Region.after_cons, hNext, Region.after_append, Region.after_comment hBody]
    exact ih

/-- Behind what is outside of strings and comments, the same piece ends outside of them, too. -/
theorem Outside.append_iff (h : Outside pre) : Outside (pre ++ cs) ↔ Outside cs := by
  rw [Outside, Region.after_append, h]
  rfl

/-- A proper part of a string literal ends in the string. -/
theorem string_outside {literal : String} (h : scanString literal.toList = some (literal, [])) :
    Outside literal.toList ∧
      ∀ front more, literal.toList = front ++ more → front ≠ [] → more ≠ [] → ¬ Outside front := by
  obtain ⟨s, hChars⟩ := string_quote h
  -- the first character is the quote, so the body is what the scan is about
  rw [hChars] at h ⊢
  obtain ⟨⟨body, mid⟩, hBody, hResult⟩ := Option.map_eq_some_iff.mp h
  obtain ⟨hLiteral, -⟩ := Prod.mk.inj hResult
  rw [← hLiteral, String.toList_ofList] at hChars
  cases hChars
  obtain ⟨hEnd, hInside⟩ := Region.after_stringBody hBody
  refine ⟨hEnd, ?_⟩
  rintro (_ | ⟨d, front⟩) more hText hSome hMore
  · exact absurd rfl hSome
  · cases hText
    exact hInside front more rfl hMore

/-- A token ends outside of strings and comments. -/
theorem Token.WellFormed.outside (h : t.WellFormed) : Outside t.chars := by
  by_cases hString : ∃ pos literal, t = .string pos literal
  · obtain ⟨pos, literal, rfl⟩ := hString
    exact (string_outside h).1
  · exact Region.after_plain (h.plain fun pos literal hEq => hString ⟨pos, literal, hEq⟩)

/-! ## The start of trivia -/

/-- The text starts with a blank or a comment. -/
def StartsTrivia (cs : List Char) : Prop :=
  ∃ c ∈ cs.head?, startsToken c = false

/-- In front of trivia that is not empty, all tokens end. -/
theorem Trivia.starts (h : Trivia gap) (hSome : gap ≠ []) : StartsTrivia (gap ++ post) := by
  cases h with
  | nil => exact absurd rfl hSome
  | @blank c cs hBlank => exact ⟨c, rfl, by rw [startsToken, hBlank, Bool.not_true, Bool.and_false]⟩
  | comment => exact ⟨'#', rfl, by decide⟩

/-- In front of trivia that goes up to the end of the text, all tokens end. -/
theorem Ending.starts (h : Ending gap) (hSome : gap ≠ []) : StartsTrivia gap := by
  cases h with
  | trivia h =>
    rw [← List.append_nil gap]
    exact h.starts hSome
  | @comment cs body h hBody =>
    by_cases hFirst : cs = []
    · subst hFirst
      exact ⟨'#', rfl, by decide⟩
    · exact h.starts hFirst

/-- Every token ends in front of trivia, and no sign is doubled there. -/
theorem StartsTrivia.ends (h : StartsTrivia new) (t : Token) : t.Ended new ∧ ¬ t.Doubled new := by
  obtain ⟨c, hHead, hc⟩ := h
  -- what starts a token is not in front of it
  have hNone : ∀ p : Char → Bool, (∀ d, p d = true → startsToken d = true) →
      ∀ d ∈ new.head?, p d = false := by
    intro p hStarts d hd
    obtain rfl : c = d := Option.some.inj (hHead.symm.trans hd)
    rw [← Bool.not_eq_true]
    intro hp
    rw [hStarts c hp] at hc
    cases hc
  have hSign : ∀ d, startsToken d = true → new.head? ≠ some d := by
    intro d hd hNew
    obtain rfl : c = d := Option.some.inj (hHead.symm.trans hNew)
    rw [hd] at hc
    cases hc
  cases t with
  | keyword | truth => exact ⟨hNone _ fun _ => alphanumeric_startsToken, not_false⟩
  | name => exact ⟨hNone _ fun _ => nameChar_startsToken, not_false⟩
  | number => exact ⟨hNone _ fun _ => digit_startsToken, not_false⟩
  | string => exact ⟨trivial, not_false⟩
  | symbol s =>
    refine ⟨trivial, ?_⟩
    rintro ⟨rfl | rfl, hDouble⟩
    · exact hSign '+' (by decide) hDouble
    · exact hSign '-' (by decide) hDouble

/-- No token reaches over the start of trivia. -/
theorem Token.WellFormed.seam (h : t.WellFormed) (hText : t.chars ++ mid = word ++ old)
    (hSome : word ≠ []) (hOutside : Outside word) (hOld : StartsTrivia old) :
    ∃ more, word = t.chars ++ more ∧ mid = more ++ old := by
  rcases List.append_eq_append_iff.mp hText with ⟨more, hWord, hMid⟩ | ⟨more, hChars, hRest⟩
  · exact ⟨more, hWord, hMid⟩
  cases more with
  | nil =>
    rw [List.append_nil] at hChars
    exact ⟨[], by rw [hChars, List.append_nil], hRest.symm⟩
  | cons c more =>
    -- the token would go on with the character that trivia starts with
    obtain ⟨d, hHead, hd⟩ := hOld
    rw [hRest, List.cons_append, List.head?_cons] at hHead
    obtain rfl : c = d := Option.some.inj hHead
    by_cases hString : ∃ pos literal, t = .string pos literal
    · obtain ⟨pos, literal, rfl⟩ := hString
      exact absurd hOutside ((string_outside h).2 word _ hChars hSome (List.cons_ne_nil c more))
    · have hPlain := h.plain (fun pos literal hEq => hString ⟨pos, literal, hEq⟩) c
        (by rw [hChars]; simp)
      rw [hPlain.1] at hd
      cases hd

/-! ## Runs of trivia -/

/-- What is left behind trivia starts a token. -/
theorem skipTriviaFrom_starts {c : Char} {inComment : Bool}
    (h : skipTriviaFrom inComment cs = c :: rest) : startsToken c = true := by
  induction cs generalizing inComment with
  | nil => cases h
  | cons d cs ih =>
    rw [skipTriviaFrom] at h
    split at h
    · exact ih h
    · split at h
      · exact ih h
      · split at h
        · exact ih h
        -- neither a comment nor a blank
        · rename_i hComment hBlank
          cases h
          rw [startsToken, Bool.and_eq_true, bne_iff_ne, Bool.not_eq_true']
          exact ⟨by simpa using hComment, by simpa using hBlank⟩

/-- A run of trivia between two pieces of a text. It does not start inside of a string or of a
comment, and its comments end with a line feed unless the text ends with the run. -/
structure TriviaRun (pre gap post : List Char) : Prop where
  some : gap ≠ []
  outside : Outside pre
  trivia : Trivia gap ∨ post = [] ∧ Ending gap

namespace TriviaRun

/-- In front of a run of trivia, all tokens end. -/
theorem starts (h : TriviaRun pre gap post) : StartsTrivia (gap ++ post) := by
  obtain hTrivia | ⟨rfl, hEnding⟩ := h.trivia
  · exact hTrivia.starts h.some
  · rw [List.append_nil]
    exact hEnding.starts h.some

/-- A run of trivia is skipped. -/
theorem skip (h : TriviaRun pre gap post) : skipTrivia (gap ++ post) = skipTrivia post := by
  obtain hTrivia | ⟨rfl, hEnding⟩ := h.trivia
  · exact hTrivia.skip post
  · rw [List.append_nil, hEnding.skip]
    rfl

end TriviaRun

/-- A piece of text that ends outside of strings and comments is trivia, or there is a token in it
behind some trivia. -/
theorem Outside.front (h : Outside pre) :
    Trivia pre ∨ ∃ word, word ≠ [] ∧ Outside word ∧
      ∀ more, skipTrivia (pre ++ more) = word ++ more := by
  obtain ⟨gap, hGap, hText | ⟨-, body, hBody, rfl⟩⟩ := skipTrivia_gap pre
  -- only trivia is skipped in a piece that ends outside, so the question is what is left of it
  · rw [hText, hGap.outside.append_iff] at h
    cases hWord : skipTrivia pre with
    | nil =>
      rw [hWord, List.append_nil] at hText
      rw [hText]
      exact .inl hGap
    | cons c word =>
      rw [hWord] at h hText
      refine .inr ⟨c :: word, List.cons_ne_nil c word, h, fun more => ?_⟩
      rw [hText, List.append_assoc, hGap.skip]
      exact skipTrivia_of_starts (skipTriviaFrom_starts hWord)
  · -- in front of an open comment nothing is outside
    have hNext : Region.code.next '#' = .comment := rfl
    rw [hGap.outside.append_iff, Outside, Region.after_cons, hNext,
      Region.after_comment hBody] at h
    cases h

/-- In the place of a text that starts with trivia, another one that goes on in the same way is cut
into the same tokens. -/
theorem FoundBehind.exchange (h : FoundBehind behind ts cs rest) (hForm : Formed ts)
    (hEnd : skipTrivia rest = []) (hText : cs = pre ++ old) (hOutside : Outside pre)
    (hOld : StartsTrivia old) (hNew : StartsTrivia new) (hSkip : skipTrivia new = skipTrivia old) :
    ∃ rest', FoundBehind behind ts (pre ++ new) rest' ∧ skipTrivia rest' = [] := by
  induction h generalizing pre with
  | nil behind cs =>
    subst hText
    refine ⟨pre ++ new, .nil behind _, ?_⟩
    obtain hTrivia | ⟨word, hSome, -, hFront⟩ := hOutside.front
    · rw [hTrivia.skip, hSkip, ← hTrivia.skip, hEnd]
    · rw [hFront old] at hEnd
      exact absurd (List.append_eq_nil_iff.mp hEnd).1 hSome
  | @cons behind t ts cs mid rest hStart hSome hEnded hSingle hCut ih =>
    subst hText
    obtain ⟨hToken, hOthers⟩ := List.forall_mem_cons.mp hForm
    obtain hTrivia | ⟨word, hWord, hInner, hFront⟩ := hOutside.front
    · -- the token stands behind the trivia
      refine ⟨rest, .cons ?_ hSome hEnded hSingle hCut, hEnd⟩
      rw [hTrivia.skip, hSkip, ← hTrivia.skip, hStart]
    · -- the token stands in front of the trivia, and may end there
      rw [hFront old] at hStart
      -- the token lies in the piece in front of the trivia, so the trivia may stand right behind it
      obtain ⟨more, rfl, hMid⟩ := hToken.seam hStart.symm hWord hInner hOld
      rw [hToken.outside.append_iff] at hInner
      obtain ⟨rest', hCut', hEnd'⟩ := ih hOthers hEnd hMid hInner
      have hNewText : skipTrivia (pre ++ new) = t.chars ++ (more ++ new) := by
        rw [hFront new, List.append_assoc]
      have hAlike : t.EndsAlike mid (more ++ new) := by
        rw [hMid]
        -- at most one character is looked at behind the token; if it is not from the piece, it is
        -- where trivia starts
        cases more with
        | nil => exact ⟨fun _ => (hNew.ends t).1, fun hDouble => absurd hDouble (hNew.ends t).2⟩
        | cons d more => exact ⟨fun hEnd => hEnd.of_head rfl, fun hDouble => hDouble.of_head rfl⟩
      exact ⟨rest', .cons hNewText hSome (hAlike.1 hEnded)
        (fun hBehind hDouble => hSingle hBehind (hAlike.2 hDouble)) hCut', hEnd'⟩

/-- **Layout.** In an accepted text, any run of trivia outside of strings can be exchanged for any
other one, whatever white space and comments they consist of. The text is then read as the same
tree, but for the positions. -/
theorem layout_irrelevant {source : String} {p : Program} (h : parse source = .ok p)
    (hText : source.toList = pre ++ (gap ++ post)) (hRun : TriviaRun pre gap post)
    (hRun' : TriviaRun pre gap' post) :
    ∃ q, parse (String.ofList (pre ++ (gap' ++ post))) = .ok q ∧ q.unplaced = p.unplaced := by
  obtain ⟨ts, rest, hCut, hEnd, hDerives⟩ := parse_seen h
  obtain ⟨rest', hCut', hEnd'⟩ := hCut.found.exchange hDerives.formed hEnd hText hRun.outside
    hRun.starts hRun'.starts (hRun'.skip.trans hRun.skip.symm)
  have hNewText : (String.ofList (pre ++ (gap' ++ post))).toList = pre ++ (gap' ++ post) :=
    String.toList_ofList
  rw [← hNewText] at hCut'
  exact parse_found hDerives hCut'.unsigned hEnd'

/-- A comment with a quote and a bracket, between a type and a name. -/
def commentRun : List Char :=
  [' ', '#', '"', '[', '\n']

/-- A tab, and a comment with a point. -/
def pointRun : List Char :=
  ['\t', '#', '.', '\n']

/-- A comment in the place of another one, with a bracket in the one and a full stop in the
other. -/
theorem commented_declaration_parses :
    ∃ p, parse "integer #\"[\nx." = .ok p ∧
      "integer #\"[\nx.".toList = "integer".toList ++ (commentRun ++ "x.".toList) ∧
      TriviaRun "integer".toList commentRun "x.".toList ∧
      TriviaRun "integer".toList pointRun "x.".toList ∧
      ∃ q, parse (String.ofList ("integer".toList ++ (pointRun ++ "x.".toList))) = .ok q ∧
        q.unplaced = p.unplaced := by
  have hOutside : Outside "integer".toList := by
    rw [Outside]
    decide
  have hComment : Trivia commentRun := by
    show Trivia (' ' :: '#' :: (['"', '['] ++ '\n' :: []))
    exact .blank (by decide) (.comment (by decide) .nil)
  have hPoint : Trivia pointRun := by
    show Trivia ('\t' :: '#' :: (['.'] ++ '\n' :: []))
    exact .blank (by decide) (.comment (by decide) .nil)
  -- both runs stand between the same two words, outside of strings
  have hRun : TriviaRun "integer".toList commentRun "x.".toList :=
    ⟨List.cons_ne_nil _ _, hOutside, .inl hComment⟩
  have hRun' : TriviaRun "integer".toList pointRun "x.".toList :=
    ⟨List.cons_ne_nil _ _, hOutside, .inl hPoint⟩
  have hText : "integer #\"[\nx.".toList = "integer".toList ++ (commentRun ++ "x.".toList) := by
    decide
  have hSeen : (parse "integer #\"[\nx.").toOption.map (fun p => p.positions) =
      some [⟨2, 1⟩] := by
    decide +kernel
  obtain ⟨p, hRead, -⟩ := exists_of_seen hSeen
  exact ⟨p, hRead, hText, hRun, hRun', layout_irrelevant hRead hText hRun hRun'⟩

end NameResolution.Grammar
