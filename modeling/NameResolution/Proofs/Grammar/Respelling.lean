import Mathlib.Data.List.Nodup
import NameResolution.Proofs.Grammar.AcceptingProgram
import NameResolution.Proofs.Grammar.Positions
import NameResolution.Proofs.Grammar.Relabelled

/-!
# Respelling — another name in the place of a name

A name of an accepted text can be replaced by another one, and nothing else changes: the text in
front of it is cut as before, and so is the text behind it. The one exception are words that start
with a keyword and an underscore. Where such a keyword is tried before a name, it is taken off the
word, and what is left is something else or nothing at all.

* `FoundBehind.replace` — what is cut in front of one text is cut in front of another.
* `Stands`, `Program.Fits` — where a name stands in a text, and the words that fit in there.
* `respelled_iff` — with another word in the place of a name, the text is read as the tree with that
  name changed exactly if the word fits.
-/

namespace NameResolution

/-! ## Another name in a tree -/

/-- The identifier with another name, if it stands at `pos`. -/
def Ident.respell (pos : Position) (word : String) (id : Ident) : Ident :=
  if id.pos = pos then { id with name := word } else id

/-- The program with another name in the place of the one at `pos`. -/
def Program.respell (pos : Position) (word : String) (p : Program) : Program :=
  p.relabel (fun place => place) (Ident.respell pos word)

/-- The word does not start with a keyword and an underscore that would be taken off it in the place
of the identifier: with a truth value where an operand stands, or with `return` where an assignment
or a call starts a statement. -/
def Program.Fits (p : Program) (id : Ident) (word : String) : Prop :=
  ((.operand, id) ∈ p.leads →
      ¬ Grammar.Keyword.Opens .trueWord word ∧ ¬ Grammar.Keyword.Opens .falseWord word) ∧
    ((.opening, id) ∈ p.leads → ¬ Grammar.Keyword.Opens .returnWord word)

namespace Grammar

variable {limit : Nat} {behind : Bool} {ts us : List Token} {t : Token}
  {cs front rest rest' : List Char}

/-! ## Cuts in front of other texts -/

/-- What a cut leaves is an end of the text. -/
theorem SignedCut.suffix {bound : List Char → List Char → Token → Prop}
    (h : SignedCut bound behind ts cs rest) : rest <:+ cs := by
  induction h with
  | nil _ cs => exact List.suffix_refl cs
  | @cons _ t _ cs mid _ hText _ _ _ _ ih =>
    have hMid : mid <:+ skipTrivia cs := ⟨t.chars, hText.symm⟩
    exact (ih.trans hMid).trans (skipTrivia_suffix cs)

/-- Where a token ends is a matter of the next character only. -/
theorem Token.Ended.of_head (h : t.Ended rest) (hHead : rest'.head? = rest.head?) :
    t.Ended rest' := by
  cases t with
  | keyword | truth | name | number =>
    rw [Ended, hHead]
    exact h
  | symbol | string => trivial

/-- Whether a sign is one of two depends on the next character only. -/
theorem Token.Doubled.of_head (h : t.Doubled rest') (hHead : rest'.head? = rest.head?) :
    t.Doubled rest := by
  cases t with
  | symbol s =>
    rw [Doubled, ← hHead]
    exact h
  | keyword | truth | name | number | string => exact h

/-- In front of `rest'` the token ends in the same way as in front of `rest`. -/
def Token.EndsAlike (t : Token) (rest rest' : List Char) : Prop :=
  (t.Ended rest → t.Ended rest') ∧ (t.Doubled rest' → t.Doubled rest)

/-- What is cut in front of `rest` is cut in front of `rest'`, if the last token ends there, too. -/
theorem FoundBehind.replace (h : FoundBehind behind ts cs rest) (hForm : Formed ts)
    (hFront : cs = front ++ rest)
    (hEdge : ∀ t : Token, t.WellFormed → t.chars <:+ front → t.EndsAlike rest rest') :
    FoundBehind behind ts (front ++ rest') rest' := by
  induction h generalizing front with
  | nil behind cs =>
    obtain rfl : front = [] := by simpa using hFront
    exact .nil behind rest'
  | @cons behind t ts cs mid rest hText hSome hEnded hSingle hCut ih =>
    obtain ⟨hToken, hOthers⟩ := List.forall_mem_cons.mp hForm
    obtain ⟨inner, rfl⟩ := SignedCut.suffix hCut
    -- the trivia in front of the token, and what is between the token and the rest
    obtain ⟨gap, hGap, hGapText⟩ := trivia_of_token hText hSome
    have hFront' : front = gap ++ (t.chars ++ inner) := by
      rw [hFront] at hGapText
      refine (List.append_left_inj rest).mp ?_
      simpa using hGapText
    have hAlike : t.EndsAlike (inner ++ rest) (inner ++ rest') := by
      cases inner with
      | nil =>
        refine hEdge t hToken ⟨gap, ?_⟩
        rw [hFront', List.append_nil]
      | cons d inner => exact ⟨fun hEnd => hEnd.of_head rfl, fun hDouble => hDouble.of_head rfl⟩
    have hNewText : skipTrivia (front ++ rest') = t.chars ++ (inner ++ rest') := by
      rw [hFront', List.append_assoc, List.append_assoc, hGap.skip, hToken.skip]
    refine .cons hNewText hSome (hAlike.1 hEnded)
      (fun hBehind hDouble => hSingle hBehind (hAlike.2 hDouble)) (ih hOthers rfl ?_)
    -- a token at the end of what is between is at the end of the whole front
    intro u hu hLast
    refine hEdge u hu (hLast.trans ⟨gap ++ t.chars, ?_⟩)
    rw [hFront', List.append_assoc]

/-! ## In front of a name -/

/-- A word whose characters are all such of names ends with one. -/
theorem last_of_word {word : List Char} (hSome : word ≠ [])
    (hWord : ∀ c ∈ word, isNameChar c = true) : ∃ c ∈ word.getLast?, isNameChar c = true :=
  ⟨word.getLast hSome, List.getLast?_eq_some_getLast hSome, hWord _ (List.getLast_mem hSome)⟩

/-- In front of a name any token ends that is not a word itself. -/
theorem Token.endsAlike_name {c : Char} (hForm : t.WellFormed) (hName : isNameStart c = true)
    (hLast : ∀ d ∈ t.chars.getLast?, isNameChar d = false) : t.EndsAlike rest (c :: cs) := by
  have hNoWord : ∀ word : List Char, t.chars = word → word ≠ [] →
      ¬ ∀ d ∈ word, isNameChar d = true := by
    rintro word rfl hSome hWord
    obtain ⟨d, hd, hChar⟩ := last_of_word hSome hWord
    rw [hLast d hd] at hChar
    cases hChar
  cases t with
  | keyword k => exact absurd k.nameChars (hNoWord _ rfl k.chars_ne_nil)
  | truth _ value =>
    exact absurd (truthWord value).nameChars (hNoWord _ rfl (truthWord value).chars_ne_nil)
  | name pos word =>
    obtain ⟨⟨d, s, hWord, -⟩, hAll, -⟩ := isName_iff.mp hForm
    exact absurd hAll (hNoWord _ rfl (by rw [hWord]; exact List.cons_ne_nil d s))
  | number pos digits =>
    refine ⟨fun _ d hd => ?_, id⟩
    cases hd
    exact not_digit_of_nameStart hName
  | symbol s =>
    refine ⟨fun _ => trivial, ?_⟩
    -- a sign is no start of a name
    rintro ⟨rfl | rfl, hSame⟩
    · cases hSame
      exact absurd hName (by decide)
    · cases hSame
      exact absurd hName (by decide)
  | string => exact ⟨fun _ => trivial, id⟩

/-! ## Names in a text -/

/-- The identifier stands in the text between `pre` and `post`, and no letter, digit or underscore
is in front of it. -/
structure Stands (text : List Char) (id : Ident) (pre post : List Char) : Prop where
  split : text = pre ++ (id.name.toList ++ post)
  place : id.pos = Text.locate text (id.name.toList ++ post)
  apart : ∀ c ∈ pre.getLast?, isNameChar c = false

/-- Every identifier of a derived tree is one of the tokens. -/
theorem DerivesProgram.token {d : Dialect} {p : Program} {id : Ident} (h : DerivesProgram d ts p)
    (hId : id ∈ p.idents) : .name id.pos id.name ∈ ts := by
  -- the marks of the tree are those of the tokens, so the name comes from one of them
  rw [← p.marks_idents, ← h.marks, marksOf, List.filterMap_filterMap] at hId
  obtain ⟨t, ht, hMark⟩ := List.mem_filterMap.mp hId
  cases t with
  | name pos word =>
    cases hMark
    exact ht
  -- operators have a mark too, but not the mark of a name
  | symbol s =>
    obtain ⟨mark, hMark, hName⟩ := Option.bind_eq_some_iff.mp hMark
    rw [Token.mark?] at hMark
    split at hMark <;> cases hMark
    cases hName
  | keyword | truth | number | string => cases hMark

/-- The token at the position of a name: with trivia in front of it, and between the same texts. -/
theorem Stands.found {text pre post start mid : List Char} {id : Ident}
    (hStands : Stands text id pre post) (hStart : start <:+ text)
    (hText : skipTrivia start = id.name.toList ++ mid) (hSome : id.name.toList ≠ [])
    (hPos : id.pos = Text.locate text (skipTrivia start)) :
    mid = post ∧ ∃ front gap, text = front ++ start ∧ Trivia gap ∧
      start = gap ++ (id.name.toList ++ post) ∧ pre = front ++ gap := by
  -- both texts begin at the same position
  have hSame : skipTrivia start = id.name.toList ++ post := by
    refine Text.locate_inj ((skipTrivia_suffix start).trans hStart) ⟨pre, hStands.split.symm⟩ ?_
    rw [← hStands.place, hPos]
  rw [hText] at hSame
  obtain rfl := List.append_cancel_left hSame
  obtain ⟨gap, hGap, hGapText⟩ := trivia_of_token hText hSome
  obtain ⟨front, hFront⟩ := hStart
  refine ⟨rfl, front, gap, hFront.symm, hGap, hGapText, ?_⟩
  refine (List.append_left_inj (id.name.toList ++ mid)).mp ?_
  rw [← hStands.split, ← hFront, hGapText, List.append_assoc]

/-- Where a name has been found, another one is found in its place. -/
theorem SeenCut.respell {text pre post : List Char} {id : Ident} {word : String}
    (hCut : SeenCut (contextOf limit text) behind (us ++ .name id.pos id.name :: ts) text rest)
    (hForm : Formed us) (hStands : Stands text id pre post) (hWord : isName word.toList = true) :
    FoundBehind behind (us ++ .name id.pos word :: ts) (pre ++ (word.toList ++ post)) rest := by
  obtain ⟨start, hUs, hRest⟩ := SignedCut.split hCut
  cases hRest with
  | @cons _ _ _ _ mid _ hText hSome hBound hSingle hBehind =>
    obtain ⟨hRead, hPos⟩ := hBound
    obtain ⟨rfl, front, gap, hText, hGap, hGapText, rfl⟩ :=
      hStands.found hUs.suffix hText hSome (hPos id.pos rfl)
    have hToken : (Token.name id.pos word).WellFormed := hWord
    obtain ⟨⟨c, s, hChars, hStart⟩, -, -⟩ := isName_iff.mp hWord
    -- the token in front ends where the trivia or the other name starts
    have hEdge : ∀ t : Token, t.WellFormed → t.chars <:+ front →
        t.EndsAlike start (gap ++ (word.toList ++ mid)) := by
      intro t ht hSuffix
      cases gap with
      | nil =>
        rw [List.nil_append, hChars]
        refine Token.endsAlike_name ht hStart fun d hd => hStands.apart d ?_
        rw [List.append_nil]
        obtain ⟨before, rfl⟩ := hSuffix
        exact List.mem_getLast?_append_of_mem_getLast? hd
      | cons d gap =>
        rw [hGapText]
        exact ⟨fun hEnd => hEnd.of_head rfl, fun hDouble => hDouble.of_head rfl⟩
    have hFirst := (SeenCut.found hUs).replace hForm hText hEdge
    have hNewText : skipTrivia (gap ++ (word.toList ++ mid)) = word.toList ++ mid := by
      rw [hGap.skip]
      exact hToken.skip mid
    rw [← List.append_assoc] at hFirst
    exact hFirst.append (.cons hNewText hToken.ne_nil hRead.ended (fun _ => not_false)
      (SeenCut.found hBehind))

/-- Only the token at the position of the name becomes another one. -/
theorem SeenCut.relabel_respell {text : List Char} {id : Ident} {word : String}
    (hCut : SeenCut (contextOf limit text) behind (us ++ .name id.pos id.name :: ts) text rest) :
    (us ++ .name id.pos id.name :: ts).map
        (Token.relabel (fun place => place) (Ident.respell id.pos word)) =
      us ++ .name id.pos word :: ts := by
  have hOther : ∀ t : Token, (∀ pos ∈ t.pos?, pos ≠ id.pos) →
      t.relabel (fun place => place) (Ident.respell id.pos word) = t := by
    intro t ht
    cases t with
    | name pos old => rw [Token.relabel, Ident.respell, if_neg (ht pos rfl)]
    | keyword | symbol | truth | number | string => rfl
  -- the positions of the tokens increase, so no other one has this position
  have hOrder := (ReadCut.ordered hCut.cut (List.suffix_refl _)).2
  have hHere : (Token.name id.pos id.name).pos? = some id.pos := rfl
  rw [List.filterMap_append, List.filterMap_cons_some hHere, List.pairwise_append,
    List.pairwise_cons] at hOrder
  obtain ⟨-, ⟨hBehind, -⟩, hBefore⟩ := hOrder
  have hUs : us.map (Token.relabel (fun place => place) (Ident.respell id.pos word)) = us := by
    refine (List.map_congr_left fun t ht => hOther t fun pos hPos => ?_).trans (List.map_id' us)
    exact (hBefore pos (List.mem_filterMap.mpr ⟨t, ht, hPos⟩) id.pos List.mem_cons_self).ne
  have hTs : ts.map (Token.relabel (fun place => place) (Ident.respell id.pos word)) = ts := by
    refine (List.map_congr_left fun t ht => hOther t fun pos hPos => ?_).trans (List.map_id' ts)
    exact (hBehind pos (List.mem_filterMap.mpr ⟨t, ht, hPos⟩)).ne.symm
  rw [List.map_append, List.map_cons, hUs, hTs, Token.relabel, Ident.respell, if_pos rfl]

/-! ## The words that fit -/

/-- Another word in the place of one name keeps all names names. -/
theorem respell_keepsNames (pos : Position) {word : String} (hWord : isName word.toList = true) :
    KeepsNames (Ident.respell pos word) := by
  intro id hName hSymbol
  rw [Ident.respell]
  split
  · exact ⟨hWord, hSymbol⟩
  · exact ⟨hName, hSymbol⟩

/-- The positions of the identifiers of a program tell them apart. -/
theorem ident_unique {source : String} {p : Program} (h : parse source = .ok p) {id id' : Ident}
    (hId : id ∈ p.idents) (hId' : id' ∈ p.idents) (hSame : id.pos = id'.pos) : id = id' := by
  have hOrder := (positions_point_at_text h).2.sublist p.idents_positions
  have hDistinct : (p.idents.map Ident.pos).Nodup := hOrder.imp Position.Before.ne
  exact List.inj_on_of_nodup_map hDistinct hId hId' hSame

/-- The leads of a tree as they are without positions. -/
theorem leads_unplaced {p q : Program} (h : q.unplaced = p.unplaced) {place : Lead} {id : Ident}
    (hLead : (place, id) ∈ p.leads) : ∃ id', (place, id') ∈ q.leads ∧ id'.name = id.name := by
  have hLeads := congrArg Program.leads h
  rw [Program.unplaced, Program.unplaced, Program.leads_relabel, Program.leads_relabel] at hLeads
  have hThere := List.mem_map_of_mem (f := relabelLead Ident.unplaced) hLead
  -- the leads of the two trees are the same without positions, so the one that is asked for is
  -- among them
  rw [← hLeads] at hThere
  obtain ⟨⟨place', id'⟩, hLead', hSame⟩ := List.mem_map.mp hThere
  obtain ⟨rfl, hIdent : id'.unplaced = id.unplaced⟩ := Prod.ext_iff.mp hSame
  refine ⟨id', hLead', ?_⟩
  show id'.unplaced.name = id.unplaced.name
  rw [hIdent]

/-- **Respelling.** In an accepted text, let another word stand in the place of a name. The text is
read as the same tree, with that name changed and in other positions, exactly if the word fits. -/
theorem respelled_iff {source : String} {p : Program} (h : parse source = .ok p) {id : Ident}
    (hId : id ∈ p.idents) {pre post : List Char} (hStands : Stands source.toList id pre post)
    {word : String} (hWord : isName word.toList = true) :
    (∃ q, parse (String.ofList (pre ++ (word.toList ++ post))) = .ok q ∧
      q.unplaced = (p.respell id.pos word).unplaced) ↔ p.Fits id word := by
  have hHere : id.respell id.pos word = { id with name := word } := if_pos rfl
  constructor
  · rintro ⟨q, hRead, hShape⟩
    obtain ⟨us, rest, -, -, hDerives⟩ := parse_reads hRead
    -- what has been read in the new text has leads that the parser does not break up
    have hAdmitted : ∀ place, (place, id) ∈ p.leads → Dialect.ordered.Admits place word := by
      intro place hLead
      have hRespelled : (place, id.respell id.pos word) ∈ (p.respell id.pos word).leads := by
        rw [Program.respell, Program.leads_relabel]
        exact List.mem_map_of_mem hLead
      obtain ⟨id', hLead', hName⟩ := leads_unplaced hShape hRespelled
      rw [hHere] at hName
      rw [← show id'.name = word from hName]
      exact hDerives.admitted _ hLead'
    exact ⟨hAdmitted .operand, hAdmitted .opening⟩
  · intro hFits
    obtain ⟨ts, rest, hCut, hEnd, hDerives⟩ := parse_seen h
    obtain ⟨us, vs, rfl⟩ := List.append_of_mem (hDerives.token hId)
    have hLeads : ∀ lead ∈ p.leads,
        Dialect.ordered.Admits lead.1 (lead.2.respell id.pos word).name := by
      rintro ⟨place, id'⟩ hLead
      by_cases hPos : id'.pos = id.pos
      · obtain rfl := ident_unique h (p.leads_idents _ hLead) hId hPos
        rw [hHere]
        cases place with
        | operand => exact hFits.1 hLead
        | opening => exact hFits.2 hLead
      · rw [Ident.respell, if_neg hPos]
        exact hDerives.admitted _ hLead
    -- the other tokens are as they were, and so is their cut
    have hNewCut := hCut.respell (List.forall_mem_append.mp hDerives.formed).1 hStands hWord
    have hNewDerives :=
      hDerives.relabel (fun place => place) (respell_keepsNames id.pos hWord) hLeads
    rw [hCut.relabel_respell] at hNewDerives
    refine parse_found hNewDerives ?_ hEnd
    rw [String.toList_ofList]
    exact hNewCut.unsigned

/-- A statement that starts with a name and has the same name as its value. -/
def selfAssignment : String := "void f[][a = a.]"

/-- What a run of the parser shows of the statement, and where its two names stand. -/
theorem selfAssignment_names :
    ∃ p, parse selfAssignment = .ok p ∧
      p.idents = [⟨⟨1, 6⟩, "f", none⟩, ⟨⟨1, 10⟩, "a", none⟩, ⟨⟨1, 14⟩, "a", none⟩] ∧
      p.leads = [(.opening, ⟨⟨1, 10⟩, "a", none⟩), (.operand, ⟨⟨1, 14⟩, "a", none⟩)] ∧
      Stands selfAssignment.toList ⟨⟨1, 10⟩, "a", none⟩ "void f[][".toList " = a.]".toList ∧
      Stands selfAssignment.toList ⟨⟨1, 14⟩, "a", none⟩ "void f[][a = ".toList ".]".toList := by
  have hSeen : (parse selfAssignment).toOption.map (fun p => (p.idents, p.leads)) =
      some ([⟨⟨1, 6⟩, "f", none⟩, ⟨⟨1, 10⟩, "a", none⟩, ⟨⟨1, 14⟩, "a", none⟩],
        [(.opening, ⟨⟨1, 10⟩, "a", none⟩), (.operand, ⟨⟨1, 14⟩, "a", none⟩)]) := by
    decide +kernel
  obtain ⟨p, hRead, hNames⟩ := exists_of_seen hSeen
  obtain ⟨hIdents, hLeads⟩ := Prod.ext_iff.mp hNames
  refine ⟨p, hRead, hIdents, hLeads, ⟨by decide, by decide, ?_⟩, ⟨by decide, by decide, ?_⟩⟩
  · rintro c ⟨⟩
    decide
  · rintro c ⟨⟩
    decide

/-- `TRUE_b` can be assigned to, and `return_b` can be a value. -/
theorem selfAssignment_respelled :
    ∃ p, parse selfAssignment = .ok p ∧
      (∃ q, parse "void f[][TRUE_b = a.]" = .ok q ∧
        q.unplaced = (p.respell ⟨1, 10⟩ "TRUE_b").unplaced) ∧
      ∃ q, parse "void f[][a = return_b.]" = .ok q ∧
        q.unplaced = (p.respell ⟨1, 14⟩ "return_b").unplaced := by
  obtain ⟨p, hRead, hIdents, hLeads, hFirst, hSecond⟩ := selfAssignment_names
  have hTarget : p.Fits ⟨⟨1, 10⟩, "a", none⟩ "TRUE_b" := by
    rw [Program.Fits, hLeads]
    decide +kernel
  have hValue : p.Fits ⟨⟨1, 14⟩, "a", none⟩ "return_b" := by
    rw [Program.Fits, hLeads]
    decide +kernel
  have hIds : ⟨⟨1, 10⟩, "a", none⟩ ∈ p.idents ∧ ⟨⟨1, 14⟩, "a", none⟩ ∈ p.idents := by
    simp [hIdents]
  -- both words fit where they are put, so both respelled texts are read
  have hNewTarget := (respelled_iff hRead hIds.1 hFirst (by decide)).mpr hTarget
  have hNewValue := (respelled_iff hRead hIds.2 hSecond (by decide)).mpr hValue
  exact ⟨p, hRead, hNewTarget, hNewValue⟩

/-- But neither of them can stand in the place of the other one. -/
theorem selfAssignment_not_respelled :
    ∃ p, parse selfAssignment = .ok p ∧ isName "TRUE_b".toList = true ∧
      isName "return_b".toList = true ∧
      (¬ ∃ q, parse "void f[][a = TRUE_b.]" = .ok q) ∧
      ¬ ∃ q, parse "void f[][return_b = a.]" = .ok q ∧
        q.unplaced = (p.respell ⟨1, 10⟩ "return_b").unplaced := by
  obtain ⟨p, hRead, hIdents, -⟩ := selfAssignment_names
  refine ⟨p, hRead, by decide, by decide, ?_, ?_⟩
  · rintro ⟨q, hNew⟩
    have hNothing : (parse "void f[][a = TRUE_b.]").toOption.isSome = false := by decide +kernel
    rw [hNew] at hNothing
    cases hNothing
  · rintro ⟨q, hNew, hShape⟩
    -- the name that has been read is shorter than the word
    have hSeen : (parse "void f[][return_b = a.]").toOption.map
        (fun q => q.unplaced.idents.map Ident.name) = some ["f", "_b", "a"] := by
      decide +kernel
    have hNames : (p.respell ⟨1, 10⟩ "return_b").unplaced.idents.map Ident.name =
        ["f", "return_b", "a"] := by
      rw [Program.unplaced, Program.idents_relabel, Program.respell, Program.idents_relabel,
        hIdents]
      rfl
    rw [hNew, Except.toOption, Option.map_some, hShape, hNames] at hSeen
    exact absurd hSeen (by decide)

end Grammar

end NameResolution
