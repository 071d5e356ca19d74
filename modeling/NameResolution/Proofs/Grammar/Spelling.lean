import NameResolution.Proofs.Grammar.Composition

/-!
# Spelling — texts that every reader cuts into the same tokens

A piece of text spells tokens in front of some texts if it is cut into them there, whatever trivia
are left over. Pieces are put together where each is followed by a text that it can stand in front
of: a word must not go on, a symbol and a space can stand in front of anything.

* `Token.WellFormed.starts`, `ClosedCut.token` — a token is cut off where its characters stand.
* `Spells` — a piece of text and the tokens that it spells.
* `Spells.append` — pieces put together.
-/

namespace NameResolution.Grammar

variable {ts us : List Token}

/-! ## Where tokens stand in a text -/

/-- A token starts with a character that is no trivia. -/
theorem Token.WellFormed.starts {t : Token} (h : t.WellFormed) :
    ∃ c s, t.chars = c :: s ∧ startsToken c = true := by
  cases t with
  | keyword k =>
    obtain ⟨c, s, hChars, hLetter⟩ := k.exists_chars
    exact ⟨c, s, hChars, nameChar_startsToken (k.nameChars c (by rw [hChars]; simp))⟩
  | truth pos value =>
    obtain ⟨c, s, hChars, hLetter⟩ := (truthWord value).exists_chars
    exact ⟨c, s, hChars,
      nameChar_startsToken ((truthWord value).nameChars c (by rw [hChars]; simp))⟩
  | symbol s =>
    -- checked for each symbol of the list
    have hStarts : ∀ s ∈ punctuation, s.head?.any startsToken = true := by decide
    obtain ⟨c, hHead, hStart⟩ := (Option.any_eq_true _ _).mp (hStarts s h)
    obtain ⟨s, rfl⟩ := List.head?_eq_some_iff.mp hHead
    exact ⟨c, s, rfl, hStart⟩
  | name pos word =>
    obtain ⟨⟨c, s, hWord, hStart⟩, hAll, -⟩ := isName_iff.mp h
    exact ⟨c, s, hWord, nameChar_startsToken (hAll c (by rw [hWord]; simp))⟩
  | number pos digits =>
    obtain ⟨hSome, hAll⟩ := h
    obtain ⟨c, s, rfl⟩ := List.exists_cons_of_ne_nil hSome
    exact ⟨c, s, rfl, digit_startsToken (hAll c List.mem_cons_self)⟩
  | string pos literal =>
    obtain ⟨s, hChars⟩ := string_quote h
    exact ⟨'"', s, hChars, by decide⟩

/-- No token but a string holds a quote, a blank or the start of a comment. -/
theorem Token.WellFormed.plain {t : Token} (h : t.WellFormed)
    (hNoString : ∀ pos literal, t ≠ .string pos literal) :
    ∀ c ∈ t.chars, startsToken c = true ∧ c ≠ '"' := by
  have hNoName : isNameChar '"' = false := by decide
  have hNoDigit : Text.isDecimalDigit '"' = false := by decide
  -- no word holds a quote
  have hWord : ∀ c, isNameChar c = true → startsToken c = true ∧ c ≠ '"' := by
    intro c hc
    refine ⟨nameChar_startsToken hc, ?_⟩
    rintro rfl
    rw [hNoName] at hc
    cases hc
  cases t with
  | keyword k => exact fun c hc => hWord c (k.nameChars c hc)
  | truth pos value => exact fun c hc => hWord c ((truthWord value).nameChars c hc)
  | symbol s =>
    have hAll : ∀ s ∈ punctuation, s.all (fun c => startsToken c && c != '"') = true := by decide
    intro c hc
    have hPlain := List.all_eq_true.mp (hAll s h) c hc
    rw [Bool.and_eq_true, bne_iff_ne] at hPlain
    exact hPlain
  | name pos word =>
    obtain ⟨-, hAll, -⟩ := isName_iff.mp h
    exact fun c hc => hWord c (hAll c hc)
  | number pos digits =>
    -- and no number does
    intro c hc
    refine ⟨digit_startsToken (h.2 c hc), ?_⟩
    rintro rfl
    have hDigit := h.2 _ hc
    rw [hNoDigit] at hDigit
    cases hDigit
  | string pos literal => exact absurd rfl (hNoString pos literal)

theorem Token.WellFormed.ne_nil {t : Token} (h : t.WellFormed) : t.chars ≠ [] := by
  obtain ⟨c, s, hChars, -⟩ := h.starts
  rw [hChars]
  exact List.cons_ne_nil c s

/-- Nothing of a token is skipped. -/
theorem Token.WellFormed.skip {t : Token} (h : t.WellFormed) (rest : List Char) :
    skipTrivia (t.chars ++ rest) = t.chars ++ rest := by
  obtain ⟨c, s, hChars, hStart⟩ := h.starts
  rw [hChars]
  exact skipTrivia_of_starts hStart

/-- A token is cut off where its characters stand. -/
theorem ClosedCut.token {t : Token} {rest : List Char} (hForm : t.WellFormed)
    (hClosed : t.Closed rest) : ClosedCut [t] (t.chars ++ rest) rest :=
  Cut.single (hForm.skip rest) hForm.ne_nil hClosed

/-- Only what stands behind the trivia counts. -/
theorem ClosedCut.behind {cs cs' rest : List Char} (h : ClosedCut ts cs rest) (hSome : ts ≠ [])
    (hTrivia : skipTrivia cs' = skipTrivia cs) : ClosedCut ts cs' rest := by
  cases h with
  | nil => exact absurd rfl hSome
  | cons hText hChars hBound hCut =>
    exact .cons (by rw [hTrivia, hText]) hChars hBound hCut

/-- No token goes on behind a space, and none behind the end of the text. -/
theorem Token.closed_of_space (t : Token) {rest : List Char} (hSpace : ∀ c ∈ rest.head?, c = ' ') :
    t.Closed rest := by
  cases t with
  | keyword | truth | name =>
    intro c hc
    rw [hSpace c hc]
    decide
  | number =>
    intro c hc
    rw [hSpace c hc]
    decide
  | symbol s =>
    intro hSign hHead
    -- the sign would have to be a space
    obtain ⟨c, hc⟩ : ∃ c, s.head? = some c := by
      rcases hSign with rfl | rfl
      · exact ⟨_, rfl⟩
      · exact ⟨_, rfl⟩
    rw [hc] at hHead
    have hBlank : c = ' ' := hSpace c hHead
    subst hBlank
    rcases hSign with rfl | rfl
    · cases hc
    · cases hc
  | string => trivial

/-! ## Pieces of text -/

/-- The piece `s` consists of the tokens, which are of the language. In front of a text that may
follow it, it is cut into them, and only trivia are left of it behind them. -/
structure Spells (follow : List Char → Prop) (s : List Char) (ts : List Token) : Prop where
  formed : Formed ts
  cut : ∀ rest, follow rest →
    ∃ mid, ClosedCut ts (s ++ rest) mid ∧ skipTrivia mid = skipTrivia rest

/-- Any text may follow. -/
def Anything (_ : List Char) : Prop := True

/-- Whether no word goes on with `c`. -/
def parts (c : Char) : Bool :=
  !Text.isAlphanumeric c && !isNameChar c && !Text.isDecimalDigit c

/-- No word goes on with the text. -/
def Apart (rest : List Char) : Prop :=
  ∀ c ∈ rest.head?, parts c = true

/-- The text starts with a space. -/
def Spaced (rest : List Char) : Prop :=
  rest.head? = some ' '

theorem apart_cons {c : Char} {cs : List Char} (h : parts c = true) : Apart (c :: cs) := by
  intro d hd
  cases hd
  exact h

namespace Spells

variable {follow follow' : List Char → Prop} {s s' : List Char}

/-- Texts that spell tokens can be put behind one another, if what follows the first one fits. -/
theorem append (h : Spells follow s ts) (h' : Spells follow' s' us)
    (hFollow : ∀ rest, follow' rest → follow (s' ++ rest)) :
    Spells follow' (s ++ s') (ts ++ us) := by
  refine ⟨List.forall_mem_append.mpr ⟨h.formed, h'.formed⟩, ?_⟩
  intro rest hRest
  obtain ⟨mid, hCut, hTrivia⟩ := h.cut (s' ++ rest) (hFollow rest hRest)
  obtain ⟨mid', hCut', hTrivia'⟩ := h'.cut rest hRest
  rw [← List.append_assoc] at hCut
  cases us with
  | nil =>
    -- the second piece is trivia, which the first one leaves as they are
    obtain rfl := hCut'.eq_of_nil
    rw [List.append_nil]
    exact ⟨mid, hCut, hTrivia.trans hTrivia'⟩
  | cons u us => exact ⟨mid', hCut.append (hCut'.behind (List.cons_ne_nil u us) hTrivia), hTrivia'⟩

/-- A text spells its tokens in front of fewer rests too. -/
theorem mono (h : Spells follow s ts) (hFollow : ∀ rest, follow' rest → follow rest) :
    Spells follow' s ts :=
  ⟨h.formed, fun rest hRest => h.cut rest (hFollow rest hRest)⟩

/-- What can stand in front of anything is put in front of another piece. -/
theorem before (h : Spells Anything s ts) (h' : Spells follow s' us) :
    Spells follow (s ++ s') (ts ++ us) :=
  h.append h' fun _ _ => trivial

/-- A word is put in front of a piece that it does not go on with. -/
theorem parted {c : Char} (h : Spells Apart s ts) (h' : Spells follow (c :: s') us)
    (hParts : parts c = true) : Spells follow (s ++ c :: s') (ts ++ us) :=
  h.append h' fun _ _ => apart_cons hParts

/-- A token is spelled by its own characters where it is closed. -/
theorem token {t : Token} (hForm : t.WellFormed) (hClosed : ∀ rest, follow rest → t.Closed rest) :
    Spells follow t.chars [t] :=
  ⟨List.forall_mem_singleton.mpr hForm,
    fun rest hRest => ⟨rest, .token hForm (hClosed rest hRest), rfl⟩⟩

/-- A symbol can stand in front of anything, unless it could be doubled. -/
theorem symbol {s : List Char} (h : s ∈ Token.punctuation ∧ s ≠ ['+'] ∧ s ≠ ['-']) :
    Spells Anything s [.symbol s] := by
  obtain ⟨hKnown, hPlus, hMinus⟩ := h
  refine token (t := .symbol s) hKnown ?_
  rintro rest - (rfl | rfl)
  · exact absurd rfl hPlus
  · exact absurd rfl hMinus

/-- A symbol is spelled in front of a blank. -/
theorem symbol_spaced {s : List Char} (hKnown : s ∈ Token.punctuation) :
    Spells Spaced s [.symbol s] := by
  refine token (t := .symbol s) hKnown ?_
  intro rest hSpaced
  refine Token.closed_of_space _ ?_
  intro c hc
  rw [hSpaced] at hc
  exact (Option.mem_some.mp hc).symm

/-- The empty text spells no tokens. -/
theorem nothing : Spells follow [] [] :=
  ⟨List.forall_mem_nil _, fun rest _ => ⟨rest, .nil rest, rfl⟩⟩

/-- A blank in front changes nothing. -/
theorem blank {c : Char} (hBlank : Text.isBlank c = true) (h : Spells follow s ts) :
    Spells follow (c :: s) ts := by
  have hTrivia : Spells Anything [c] [] :=
    ⟨List.forall_mem_nil _, fun rest _ => ⟨c :: rest, .nil _, skipTrivia_of_blank hBlank⟩⟩
  exact hTrivia.before h

end Spells

/-! ## Words -/

/-- Behind a word that is kept apart no name goes on. -/
theorem Apart.name {rest : List Char} (h : Apart rest) :
    ∀ c ∈ rest.head?, Text.isAlphanumeric c = false ∧ isNameChar c = false := by
  intro c hc
  have hParts := h c hc
  simp only [parts, Bool.and_eq_true, Bool.not_eq_true'] at hParts
  exact hParts.1

/-- Behind a word that is kept apart no number goes on. -/
theorem Apart.digits {rest : List Char} (h : Apart rest) :
    ∀ c ∈ rest.head?, Text.isDecimalDigit c = false := by
  intro c hc
  have hParts := h c hc
  simp only [parts, Bool.and_eq_true, Bool.not_eq_true'] at hParts
  exact hParts.2

theorem spells_keyword (k : Keyword) : Spells Apart k.chars [.keyword k] :=
  .token (t := .keyword k) trivial fun _ hRest => hRest.name

theorem spells_truth (pos : Position) (value : Bool) :
    Spells Apart (Token.truthWord value).chars [.truth pos value] :=
  .token (t := .truth pos value) trivial fun _ hRest => hRest.name

theorem spells_name (pos : Position) {word : String} (hName : isName word.toList = true) :
    Spells Apart word.toList [.name pos word] :=
  .token (t := .name pos word) hName fun _ hRest => hRest.name

theorem spells_number (pos : Position) {digits : List Char}
    (hForm : (Token.number pos digits).WellFormed) :
    Spells Apart digits [.number pos digits] :=
  .token hForm fun _ hRest => hRest.digits

theorem spells_string (pos : Position) {literal : String}
    (hForm : (Token.string pos literal).WellFormed) :
    Spells Anything literal.toList [.string pos literal] :=
  .token hForm fun _ _ => trivial

end NameResolution.Grammar
