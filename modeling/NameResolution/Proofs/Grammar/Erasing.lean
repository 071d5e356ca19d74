import NameResolution.Proofs.Analysis.Shown
import NameResolution.Proofs.Grammar.Lexing

/-!
# Erasing annotations — a text without the braces behind its names

With annotations on, a symbol in braces follows each name that stands for a declared one. A reader
that knows nothing of the tree can take these symbols away again: an opening brace right behind the
character of a name begins one, and the next closing brace ends it. All other braces stand behind
something else or in strings, and are left alone.

* `eraseAnnotations` — the text without annotations.
* `Erases` — a piece of text that becomes another one, wherever it stands.
* `Erases.name`, `Erases.annotated`, `Erases.string` — names, annotated names and strings.
-/

namespace NameResolution.Grammar

variable {cs rest : List Char} {s s' u u' : String}

/-! ## Erasing -/

/-- Where a reader of a text stands. -/
inductive Reading where
  /-- Outside of strings; `behindName` tells whether the last character was one of a name. -/
  | code (behindName : Bool)
  | string
  /-- In a string, behind a backslash. -/
  | escape
  /-- In a group that is left out. -/
  | group

/-- The characters that are left when each group in braces is left out that begins right behind the
character of a name; a brace that is never closed begins none. -/
def eraseFrom : Reading → List Char → List Char
  | _, [] => []
  | .code behindName, c :: cs =>
    if c == '"' then c :: eraseFrom .string cs
    else if behindName && c == '\x7b' && cs.contains '\x7d' then eraseFrom .group cs
    else c :: eraseFrom (.code (isNameChar c)) cs
  | .string, c :: cs =>
    c :: eraseFrom (if c == '"' then .code false else if c == '\\' then .escape else .string) cs
  | .escape, c :: cs => c :: eraseFrom .string cs
  | .group, c :: cs => eraseFrom (if c == '\x7d' then .code false else .group) cs

/-- The text without its annotations. -/
def eraseAnnotations (text : String) : String :=
  String.ofList (eraseFrom (.code false) text.toList)

/-- Only a brace asks what is in front of it. -/
theorem eraseFrom_code (h : cs.head? ≠ some '\x7b') (behindName : Bool) :
    eraseFrom (.code behindName) cs = eraseFrom (.code false) cs := by
  cases cs with
  | nil => rfl
  | cons c cs =>
    have hBrace : (c == '\x7b') = false := by simpa using h
    rw [eraseFrom, eraseFrom, hBrace, Bool.and_false, Bool.and_false]

/-- In a group everything is dropped up to its closing brace. -/
theorem eraseFrom_group (h : '\x7d' ∉ cs) (rest : List Char) :
    eraseFrom .group (cs ++ '\x7d' :: rest) = eraseFrom (.code false) rest := by
  induction cs with
  | nil => rfl
  | cons c cs ih =>
    obtain ⟨hBrace, hOthers⟩ := List.ne_and_not_mem_of_not_mem_cons h
    rw [List.cons_append, eraseFrom, if_neg (by simpa using Ne.symm hBrace), ih hOthers]

/-! ## Copied characters -/

/-- No string and no group begins in the characters. -/
def copied (behindName : Bool) : List Char → Bool
  | [] => true
  | c :: cs => c != '"' && !(behindName && c == '\x7b') && copied (isNameChar c) cs

/-- Whether a character of a name is the last one. -/
def endsName (behindName : Bool) (cs : List Char) : Bool :=
  cs.foldl (fun _ c => isNameChar c) behindName

/-- A text without quotes, and with no brace behind a name, is copied. -/
theorem eraseFrom_copied {behindName : Bool} (h : copied behindName cs = true)
    (rest : List Char) : eraseFrom (.code behindName) (cs ++ rest) =
      cs ++ eraseFrom (.code (endsName behindName cs)) rest := by
  induction cs generalizing behindName with
  | nil => rfl
  | cons c cs ih =>
    rw [copied, Bool.and_eq_true, Bool.and_eq_true, bne_iff_ne, Bool.not_eq_true'] at h
    obtain ⟨⟨hQuote, hBrace⟩, hOthers⟩ := h
    rw [List.cons_append, eraseFrom, if_neg (by simpa using hQuote), hBrace, Bool.false_and,
      if_neg Bool.false_ne_true, ih hOthers]
    rfl

/-- What is copied behind a name is copied everywhere. -/
theorem copied_anywhere (h : copied true cs = true) (behindName : Bool) :
    copied behindName cs = true := by
  cases behindName with
  | true => exact h
  | false =>
    cases cs with
    | nil => rfl
    | cons c cs =>
      rw [copied, Bool.and_eq_true, Bool.and_eq_true] at h ⊢
      exact ⟨⟨h.1.1, rfl⟩, h.2⟩

/-- Without quotes and opening braces, a text is copied wherever it stands. -/
theorem copied_of_plain (h : ∀ c ∈ cs, c ≠ '"' ∧ c ≠ '\x7b') (behindName : Bool) :
    copied behindName cs = true := by
  induction cs generalizing behindName with
  | nil => rfl
  | cons c cs ih =>
    obtain ⟨⟨hQuote, hBrace⟩, hOthers⟩ := List.forall_mem_cons.mp h
    simp [copied, hQuote, hBrace, ih hOthers]

/-- A character of a name is neither a quote nor a brace. -/
theorem nameChar_plain {c : Char} (h : isNameChar c = true) :
    c ≠ '"' ∧ c ≠ '\x7b' ∧ c ≠ '\x7d' := by
  refine ⟨?_, ?_, ?_⟩ <;> rintro rfl <;> exact absurd h (by decide)

/-- A text of name characters only ends a name if one was going on. -/
theorem endsName_of_all (h : ∀ c ∈ cs, isNameChar c = true) : endsName true cs = true := by
  induction cs with
  | nil => rfl
  | cons c cs ih =>
    obtain ⟨hFirst, hOthers⟩ := List.forall_mem_cons.mp h
    show endsName (isNameChar c) cs = true
    rw [hFirst]
    exact ih hOthers

/-- A name is copied, and ends like one. -/
theorem eraseFrom_name (h : isName cs = true) (behindName : Bool) (rest : List Char) :
    eraseFrom (.code behindName) (cs ++ rest) = cs ++ eraseFrom (.code true) rest := by
  obtain ⟨⟨c, word, rfl, -⟩, hAll, -⟩ := isName_iff.mp h
  have hPlain : ∀ d ∈ c :: word, d ≠ '"' ∧ d ≠ '\x7b' := fun d hd =>
    ⟨(nameChar_plain (hAll d hd)).1, (nameChar_plain (hAll d hd)).2.1⟩
  obtain ⟨hFirst, hOthers⟩ := List.forall_mem_cons.mp hAll
  -- the first character starts a name, so it does not matter what was in front of it
  have hEnds : endsName behindName (c :: word) = true := by
    show endsName (isNameChar c) word = true
    rw [hFirst]
    exact endsName_of_all hOthers
  rw [eraseFrom_copied (copied_of_plain hPlain behindName), hEnds]

/-! ## Pieces of text -/

/-- Erasing makes `plain` of `shown`, wherever it stands. Neither the text nor what follows it
starts with a brace, so nothing depends on what is in front. -/
structure Erases (shown plain : String) : Prop where
  front : shown.toList.head? ≠ some '\x7b'
  scan : ∀ behindName rest, rest.head? ≠ some '\x7b' →
    eraseFrom (.code behindName) (shown.toList ++ rest) =
      plain.toList ++ eraseFrom (.code false) rest

namespace Erases

/-- Erasing a whole text. -/
theorem erase (h : Erases s u) : eraseAnnotations s = u := by
  have hScan := h.scan false [] nofun
  rw [List.append_nil, eraseFrom, List.append_nil] at hScan
  rw [eraseAnnotations, hScan, String.ofList_toList]

/-- A text with nothing to erase, and none to be found behind it. -/
theorem copied (s : String) (h : Grammar.copied true s.toList = true) : Erases s s where
  front := by
    intro hBrace
    obtain ⟨cs, hChars⟩ := List.head?_eq_some_iff.mp hBrace
    rw [hChars] at h
    cases h
  scan behindName rest hRest := by
    rw [eraseFrom_copied (copied_anywhere h behindName), eraseFrom_code hRest]

/-- A text without quotes and opening braces. -/
theorem plain (h : ∀ c ∈ s.toList, c ≠ '"' ∧ c ≠ '\x7b') : Erases s s :=
  .copied s (copied_of_plain h true)

/-- Texts behind each other are erased one by one, as neither starts with a brace. -/
theorem append (h : Erases s u) (h' : Erases s' u') : Erases (s ++ s') (u ++ u') := by
  -- no brace starts the second text with what follows it
  have hFront : ∀ rest : List Char, rest.head? ≠ some '\x7b' →
      (s'.toList ++ rest).head? ≠ some '\x7b' := by
    intro rest hRest hBrace
    rcases List.head?_append.symm.trans hBrace |> Option.or_eq_some_iff.mp with hFirst | hSecond
    · exact h'.front hFirst
    · exact hRest hSecond.2
  refine ⟨?_, fun behindName rest hRest => ?_⟩
  · intro hBrace
    rw [String.toList_append, List.head?_append, Option.or_eq_some_iff] at hBrace
    rcases hBrace with hFirst | hSecond
    · exact h.front hFirst
    · exact h'.front hSecond.2
  · rw [String.toList_append, String.toList_append, List.append_assoc, List.append_assoc,
      h.scan behindName _ (hFront rest hRest), h'.scan false rest hRest]

/-- A text in front of one that is copied. -/
theorem before (h : Erases s u) (last : String) (hLast : Grammar.copied true last.toList = true) :
    Erases (s ++ last) (u ++ last) :=
  h.append (.copied last hLast)

/-- A text behind one that is copied. -/
theorem behind (first : String) (hFirst : Grammar.copied true first.toList = true)
    (h : Erases s u) : Erases (first ++ s) (first ++ u) :=
  (Erases.copied first hFirst).append h

/-- Joined texts are erased one by one. -/
theorem intercalate (sep : String) (hSep : Grammar.copied true sep.toList = true)
    {items plains : List String} (h : List.Forall₂ Erases items plains) :
    Erases (sep.intercalate items) (sep.intercalate plains) := by
  induction h with
  | nil => exact .copied "" rfl
  | @cons item plain items plains hFirst hOthers ih =>
    cases hOthers with
    | nil =>
      rw [String.intercalate_singleton, String.intercalate_singleton]
      exact hFirst
    | cons _ _ =>
      rw [String.intercalate_cons_cons, String.intercalate_cons_cons]
      exact (hFirst.before sep hSep).append ih

/-- A name, whatever follows it. -/
theorem name (h : isName s.toList = true) : Erases s s := by
  obtain ⟨-, hAll, -⟩ := isName_iff.mp h
  exact .plain fun c hc => ⟨(nameChar_plain (hAll c hc)).1, (nameChar_plain (hAll c hc)).2.1⟩

/-- A name with a text in braces behind it. -/
theorem annotated (h : isName s.toList = true) (hText : Braceless s') :
    Erases (s ++ "\x7b" ++ s' ++ "\x7d") s where
  front := by
    -- a name has a first character, and it is no brace
    rw [String.append_assoc, String.append_assoc]
    obtain ⟨⟨c, word, hChars, hStart⟩, -, -⟩ := isName_iff.mp h
    rw [String.toList_append, hChars]
    rintro ⟨⟩
    exact absurd hStart (by decide)
  scan behindName rest _ := by
    -- the group is closed, as its own text has no closing brace
    have hShown : (s ++ "\x7b" ++ s' ++ "\x7d").toList ++ rest =
        s.toList ++ '\x7b' :: (s'.toList ++ '\x7d' :: rest) := by
      simp
    have hClosed : (s'.toList ++ '\x7d' :: rest).contains '\x7d' = true := by
      simp
    rw [hShown, eraseFrom_name h, eraseFrom, if_neg (by decide), hClosed, if_pos (by decide),
      eraseFrom_group hText]

end Erases

/-! ## Strings -/

/-- A string is copied up to its closing quote. -/
theorem eraseFrom_stringBody {body : List Char} (h : scanStringBody cs = some (body, rest)) :
    eraseFrom .string cs = body ++ eraseFrom (.code false) rest := by
  fun_induction scanStringBody cs generalizing body rest with
  | case1 => cases h
  | case2 cs =>
    cases h
    rfl
  | case3 c cs hNewline => cases h
  | case4 c cs hNewline ih =>
    obtain ⟨⟨inner, mid⟩, hInner, hResult⟩ := Option.map_eq_some_iff.mp h
    cases hResult
    rw [List.cons_append, List.cons_append, ← ih hInner]
    rfl
  | case5 c cs hQuote hEscape hStop => cases h
  | case6 c cs hQuote hEscape hStop ih =>
    obtain ⟨⟨inner, mid⟩, hInner, hResult⟩ := Option.map_eq_some_iff.mp h
    cases hResult
    -- any other character leaves the reader in the string
    rw [Bool.or_eq_true, not_or] at hStop
    have hNoQuote : ¬ (c == '"') = true := by
      rw [beq_iff_eq]
      exact hQuote
    rw [eraseFrom, if_neg hNoQuote, if_neg hStop.2, ih hInner, List.cons_append]

/-- A string literal is copied, whatever stands between its quotes. -/
theorem Erases.string {literal : String}
    (h : scanString literal.toList = some (literal, [])) : Erases literal literal := by
  obtain ⟨body, hChars⟩ := string_quote h
  refine ⟨by rw [hChars]; nofun, fun behindName rest _ => ?_⟩
  -- the scanner finds the same string in front of any text
  have hMore := (scanString_append h).2 rest
  rw [hChars, List.cons_append] at hMore ⊢
  obtain ⟨⟨body', mid⟩, hBody, hResult⟩ := Option.map_eq_some_iff.mp hMore
  cases hResult
  rw [String.toList_ofList] at hChars
  cases hChars
  rw [eraseFrom, if_pos (by decide), eraseFrom_stringBody hBody, List.cons_append]

end NameResolution.Grammar
