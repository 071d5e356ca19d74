import NameResolution.Proofs.Grammar.AcceptingProgram
import NameResolution.Proofs.Grammar.Dialects
import NameResolution.Proofs.Grammar.Spelling

/-!
# Sentences of the context-free grammar — read as the precedences say

The parser tries alternatives in order and takes as much as it can get. That loses no sentence of
the context-free grammar, but for two conditions that concern single tokens: a name that goes on
with an underscore behind a keyword can be taken for that keyword, and a number can be too long.

* `DerivesProgram.ordered` — under these conditions, a sentence is one of the ordered dialect.
* `parse_spaced` — the tokens, written with spaces between them, are read as the derivation says.
-/

namespace NameResolution.Grammar

variable {ts : List Token}

/-! ## From the context-free grammar to ordered choice -/

/-- No keyword can be read at the start of the token if it is a name, and a number is short enough
to be read. -/
def Token.Plain : Token → Prop
  | name _ word => ∀ k : Keyword, ¬ k.Opens word
  | number _ digits => digits.length ≤ maxDigits
  | _ => True

/-- All keywords are in the list. -/
theorem Keyword.mem_all (k : Keyword) : k ∈ Keyword.all := by
  cases k <;> decide

instance (t : Token) : Decidable t.Plain :=
  match t with
  | .name _ word => decidable_of_iff (∀ k ∈ Keyword.all, ¬ k.Opens word)
      ⟨fun h k => h k k.mem_all, fun h k _ => h k⟩
  | .number _ digits => inferInstanceAs (Decidable (digits.length ≤ maxDigits))
  | .keyword _ | .symbol _ | .truth _ _ | .string _ _ => inferInstanceAs (Decidable True)

/-- An identifier of plain tokens starts with no keyword that an underscore goes on with. -/
theorem DerivesIdent.plain {id : Ident} (h : DerivesIdent ts id) (hPlain : ∀ t ∈ ts, t.Plain) :
    ∀ k : Keyword, ¬ k.Opens id.name := by
  cases h with
  | @name pos word hName => exact hPlain (.name pos word) List.mem_cons_self

/-- No plain name is taken for a word of the ordered dialect, and no plain number is too long. -/
theorem plain_transfers : Transfers .contextFree .ordered fun ts => ∀ t ∈ ts, t.Plain where
  part hPlain hPart t ht := hPlain t (hPart.subset ht)
  arguments _ hList := hList.imp id fun h => h.1.elim
  formals _ hList := hList.imp id fun h => h.1.elim
  operand hId hPlain _ := ⟨hId.plain hPlain .trueWord, hId.plain hPlain .falseWord⟩
  opening hId hPlain _ := hId.plain hPlain .returnWord
  digits hPlain _ := hPlain _ List.mem_cons_self

/-- A sentence of plain tokens has no leading comma, so it is one of the other dialect as well. -/
theorem DerivesProgram.ordered {p : Program} (h : DerivesProgram .contextFree ts p)
    (hPlain : ∀ t ∈ ts, t.Plain) : DerivesProgram .ordered ts p :=
  h.transfer plain_transfers hPlain

/-! ## Tokens with spaces between them -/

/-- The tokens as a text, with a single space between each two. -/
def spaced (ts : List Token) : String :=
  " ".intercalate (ts.map fun t => String.ofList t.chars)

/-- A blank stands between one token and the next. -/
theorem spaced_cons (t u : Token) (ts : List Token) :
    (spaced (t :: u :: ts)).toList = t.chars ++ ' ' :: (spaced (u :: ts)).toList := by
  rw [spaced, List.map_cons, List.map_cons, String.intercalate_cons_cons, String.toList_append,
    String.toList_append, String.toList_ofList, List.append_assoc]
  rfl

/-- Tokens with blanks between them are found again in their text. -/
theorem spaced_cut (hForm : Formed ts) : ClosedCut ts (spaced ts).toList [] := by
  induction ts with
  | nil => exact .nil []
  | cons t ts ih =>
    obtain ⟨hFirst, hOthers⟩ := List.forall_mem_cons.mp hForm
    cases ts with
    | nil =>
      have hText : (spaced [t]).toList = t.chars ++ [] := by
        rw [spaced, List.map_singleton, String.intercalate_singleton, String.toList_ofList,
          List.append_nil]
      rw [hText]
      exact .token hFirst (t.closed_of_space fun c hc => by cases hc)
    | cons u ts =>
      rw [spaced_cons]
      have hToken : ClosedCut [t] (t.chars ++ ' ' :: (spaced (u :: ts)).toList)
          (' ' :: (spaced (u :: ts)).toList) := by
        refine .token hFirst (t.closed_of_space ?_)
        intro c hc
        exact (Option.mem_some.mp hc).symm
      -- the space belongs to the trivia in front of the next token
      have hBehind := (ih hOthers).behind (List.cons_ne_nil u ts)
        (skipTrivia_of_blank (c := ' ') (by decide))
      exact hToken.append hBehind

/-- **Completeness.** A sentence of the context-free grammar is accepted where its tokens stand with
spaces between them, and read as the tree of its derivation, if no name of it goes on with an
underscore behind a keyword and no number of it is too long. -/
theorem parse_spaced {p : Program} (h : DerivesProgram .contextFree ts p)
    (hPlain : ∀ t ∈ ts, t.Plain) : ∃ q, parse (spaced ts) = .ok q ∧ q.unplaced = p.unplaced :=
  parse_accepts (h.ordered hPlain) (spaced_cut h.formed) rfl

/-- A word that stands nowhere in particular. -/
def word (text : String) : Token := .name ⟨1, 1⟩ text

/-- The identifier that the word is. -/
def wordId (text : String) : Ident := ⟨⟨1, 1⟩, text, none⟩

/-- The function `void f [ ] [ a = b = x | - y + z * u : v : w . ]`. -/
def precedenceTokens : List Token :=
  [.keyword .void, word "f", .symbol ['['], .symbol [']'], .symbol ['['], word "a", .symbol ['='],
    word "b", .symbol ['='], word "x", .symbol ['|'], .symbol ['-'], word "y", .symbol ['+'],
    word "z", .symbol ['*'], word "u", .symbol [':'], word "v", .symbol [':'], word "w",
    .symbol ['.'], .symbol [']']]

/-- The tree that the precedences say: `a = (b = (x | ((-y) + (z * ((u:v):w)))))`. -/
def precedenceProgram : Program :=
  ⟨[.func ⟨.void, wordId "f", [], ⟨[], [.assign (.var (wordId "a"))
    (.assign (.var (wordId "b"))
      (.binary "|" (.loc (.var (wordId "x")))
        (.binary "+" (.unary "-" (.loc (.var (wordId "y"))))
          (.binary "*" (.loc (.var (wordId "z")))
            (.loc (.field (.field (.var (wordId "u")) (wordId "v")) (wordId "w")))))))]⟩⟩]⟩

/-- A word as an identifier. -/
theorem word_derives (text : String) (h : isName text.toList = true) :
    DerivesIdent [word text] (wordId text) := .name ⟨1, 1⟩ h

/-- A word as a variable, at any level. -/
theorem variable_derives (text : String) (h : isName text.toList = true) (level : Level) :
    DerivesExpr .contextFree level [word text] (.loc (.var (wordId text))) :=
  DerivesExpr.lift (.loc (.var (word_derives text h)) trivial) level

/-- The tree of the sentence, with every operator in its place. -/
theorem precedenceProgram_derives :
    DerivesProgram .contextFree precedenceTokens precedenceProgram := by
  have hPath : DerivesLoc [word "u", .symbol [':'], word "v", .symbol [':'], word "w"]
      (.field (.field (.var (wordId "u")) (wordId "v")) (wordId "w")) :=
    .field (.field (.var (word_derives "u" (by decide))) (word_derives "v" (by decide)))
      (word_derives "w" (by decide))
  -- from the leaves up, one derivation for each level
  have hFields : DerivesExpr .contextFree .primary _ (.loc _) := .loc hPath trivial
  have hProduct : DerivesExpr .contextFree .product _ (.binary (String.ofList ['*']) _ _) :=
    .operation (by decide) rfl (variable_derives "z" (by decide) .product) (hFields.lift .unary)
  have hNegated : DerivesExpr .contextFree .unary _ (.unary (String.ofList ['-']) _) :=
    .sign (by decide) (variable_derives "y" (by decide) .unary)
  have hSum : DerivesExpr .contextFree .sum _ (.binary (String.ofList ['+']) _ _) :=
    .operation (by decide) rfl (.tighter rfl (.tighter rfl hNegated)) hProduct
  have hChoice : DerivesExpr .contextFree .disjunction _ (.binary (String.ofList ['|']) _ _) :=
    .operation (by decide) rfl (variable_derives "x" (by decide) .disjunction)
      (.tighter rfl (.tighter rfl hSum))
  have hInner : DerivesExpr .contextFree .assignment _ (.assign (.var (wordId "b")) _) :=
    .assign (.var (word_derives "b" (by decide))) (.tighter rfl hChoice)
  have hOuter : DerivesStmt .contextFree _ (.assign (.var (wordId "a")) _) :=
    .assign (.var (word_derives "a" (by decide))) trivial hInner
  have hBody : Rows (DerivesStmt .contextFree) _ _ := ⟨[(_, _)], by simpa using hOuter, rfl, rfl⟩
  have hDecl : DerivesDecl .contextFree _ (.func ⟨.void, wordId "f", _, _⟩) :=
    .func .void (word_derives "f" (by decide)) [] (by simp) (.inl rfl) ⟨[], by simp, rfl, rfl⟩ hBody
  exact ⟨[(_, _)], by simpa using hDecl, rfl, rfl⟩

/-- The sentence is read from its text as the tree that the grammar gives to it. -/
theorem precedenceProgram_parses :
    (DerivesProgram .contextFree precedenceTokens precedenceProgram ∧
      ∀ t ∈ precedenceTokens, t.Plain) ∧
    spaced precedenceTokens = "void f [ ] [ a = b = x | - y + z * u : v : w . ]" ∧
    ∃ q, parse (spaced precedenceTokens) = .ok q ∧ q.unplaced = precedenceProgram.unplaced :=
  ⟨⟨precedenceProgram_derives, by decide⟩, by decide,
    parse_spaced precedenceProgram_derives (by decide)⟩

/-- The tokens determine the tree. -/
theorem tree_unique {p q : Program} (hp : DerivesProgram .contextFree ts p)
    (hq : DerivesProgram .contextFree ts q) (hPlain : ∀ t ∈ ts, t.Plain) :
    p.unplaced = q.unplaced := by
  obtain ⟨p', hRead, hShape⟩ := parse_accepts (hp.ordered hPlain) (spaced_cut hp.formed) rfl
  obtain ⟨q', hRead', hShape'⟩ := parse_accepts (hq.ordered hPlain) (spaced_cut hq.formed) rfl
  -- the text of the tokens is read in one way
  rw [hRead] at hRead'
  cases hRead'
  rw [← hShape, hShape']

end NameResolution.Grammar
