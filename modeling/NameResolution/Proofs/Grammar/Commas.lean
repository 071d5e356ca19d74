import NameResolution.Proofs.Grammar.Dialects
import NameResolution.Proofs.Grammar.Visible

/-!
# Commas — which accepted texts are sentences of the context-free grammar

A list is read as items with commas between them, and just as well with a comma in front of each.
Only the former is a list of the context-free grammar. The two differ in the first comma, which
stands directly behind the opening bracket: and there no sentence of the context-free grammar has
one.

* `Led` — some opening bracket has a comma directly behind it.
* `DerivesProgram.contextFree` — what is read without that is a sentence of the context-free
  grammar.
* `DerivesProgram.not_led` — no sentence of the context-free grammar has it.
-/

namespace NameResolution.Grammar

variable {ts us : List Token} {cs cs' : List Char}

/-- In the visible characters, an opening bracket is followed by a comma. -/
def Led (cs : List Char) : Prop :=
  ['(', ','] <:+: cs ∨ ['[', ','] <:+: cs

instance : DecidablePred Led := fun cs =>
  inferInstanceAs (Decidable (['(', ','] <:+: cs ∨ ['[', ','] <:+: cs))

/-- A text has a list with a leading comma if a part of it has one. -/
theorem Led.mono (h : Led cs) (hPart : cs <:+: cs') : Led cs' :=
  h.imp (fun h => h.trans hPart) fun h => h.trans hPart

/-! ## From ordered choice to the context-free grammar -/

/-- What is seen of a part of the tokens is a part of what is seen of all of them. -/
theorem visible_part (hPart : us <:+: ts) :
    us.flatMap Token.visible <:+: ts.flatMap Token.visible := by
  obtain ⟨before, behind, rfl⟩ := hPart
  exact ⟨before.flatMap Token.visible, behind.flatMap Token.visible, by simp⟩

/-- A list in brackets that starts with no comma has commas between its items only. -/
theorem listed_of_not_led {opening closing : Char} {rows : List (List Token)}
    (hOpening : opening = '(' ∨ opening = '[')
    (hLed : ¬ Led ((enclosed opening closing ts).flatMap Token.visible))
    (hList : Dialect.ordered.Listed rows ts) : Dialect.contextFree.Listed rows ts := by
  rcases hList with hBetween | ⟨-, rfl⟩
  · exact .inl hBetween
  · cases rows with
    | nil => exact .inl rfl
    | cons row rows =>
      -- the first two characters are the bracket and the comma
      have hStart : [opening, ','] <:+:
          (enclosed opening closing (behindCommas (row :: rows))).flatMap Token.visible :=
        (List.prefix_append [opening, ','] _).isInfix
      rcases hOpening with rfl | rfl
      · exact absurd (.inl hStart) hLed
      · exact absurd (.inr hStart) hLed

/-- Without a leading comma in what is seen, both ways of writing lists are the same, so a
derivation passes from the one dialect to the other. -/
theorem not_led_transfers :
    Transfers .ordered .contextFree fun ts => ¬ Led (ts.flatMap Token.visible) where
  part hLed hPart := fun h => hLed (h.mono (visible_part hPart))
  arguments hLed hList := listed_of_not_led (.inl rfl) hLed hList
  formals hLed hList := listed_of_not_led (.inr rfl) hLed hList
  operand _ _ _ := trivial
  opening _ _ _ := trivial
  digits _ _ := trivial

/-- What is read is a sentence of the context-free grammar if no list in it starts with a comma. -/
theorem DerivesProgram.contextFree {p : Program} (h : DerivesProgram .ordered ts p)
    (hLed : ¬ Led (ts.flatMap Token.visible)) : DerivesProgram .contextFree ts p :=
  h.transfer not_led_transfers hLed

/-! ## Sentences of the context-free grammar -/

/-- The characters can be followed by a comma and stand behind an opening bracket, and inside of
them no comma follows one. -/
structure Framed (cs : List Char) : Prop where
  first : cs.head? ≠ some ','
  last : ∀ c ∈ cs.getLast?, c ≠ '(' ∧ c ≠ '['
  inside : cs.IsChain fun c d => d = ',' → c ≠ '(' ∧ c ≠ '['

namespace Framed

/-- Two framed texts behind each other are framed. -/
theorem append (h : Framed cs) (h' : Framed cs') : Framed (cs ++ cs') where
  first := by
    cases cs with
    | nil => exact h'.first
    | cons c cs => exact h.first
  last c hc := by
    rw [List.getLast?_append, Option.mem_def, Option.or_eq_some_iff] at hc
    rcases hc with hc | ⟨-, hc⟩
    · exact h'.last c hc
    · exact h.last c hc
  inside := by
    refine h.inside.append h'.inside ?_
    -- at the seam, the second text starts with no comma
    rintro c - d hd rfl
    exact absurd hd h'.first

/-- A text with none of the three characters is framed. -/
theorem of_none (hComma : ',' ∉ cs) (hParenthesis : '(' ∉ cs) (hBracket : '[' ∉ cs) :
    Framed cs where
  first h := hComma (List.mem_of_mem_head? h)
  last c hc := by
    have hMem := List.mem_of_mem_getLast? hc
    constructor
    · rintro rfl
      exact hParenthesis hMem
    · rintro rfl
      exact hBracket hMem
  inside := isChain_of_none hComma

/-- Whatever the opening bracket is, no comma stands behind it. -/
theorem enclosed {opening closing : Char} (h : Framed cs) (hOpening : opening ≠ ',')
    (hClosing : Framed [closing]) : Framed (opening :: (cs ++ [closing])) where
  first := by simpa using hOpening
  last c hc := by
    rw [← List.cons_append, List.getLast?_concat] at hc
    exact hClosing.last c hc
  inside := by
    have hBody := h.append hClosing
    refine List.isChain_cons.mpr ⟨?_, hBody.inside⟩
    rintro d hd rfl
    exact absurd hd hBody.first

/-- A comma between two framed texts, neither of them empty, leads no list. -/
theorem comma (hSome : cs ≠ []) (hSome' : cs' ≠ []) (h : Framed cs) (h' : Framed cs') :
    Framed (cs ++ ',' :: cs') := by
  obtain ⟨c, s, rfl⟩ := List.exists_cons_of_ne_nil hSome
  obtain ⟨d, s', rfl⟩ := List.exists_cons_of_ne_nil hSome'
  refine ⟨h.first, ?_, ?_⟩
  · intro e he
    rw [List.getLast?_append_cons, List.getLast?_cons_cons] at he
    exact h'.last e he
  · have hBehind : (',' :: d :: s').IsChain fun c d => d = ',' → c ≠ '(' ∧ c ≠ '[' := by
      refine List.isChain_cons_cons.mpr ⟨?_, h'.inside⟩
      rintro rfl
      exact absurd rfl h'.first
    -- what stands in front of the comma is no opening bracket
    refine h.inside.append hBehind ?_
    rintro e he f - -
    exact h.last e he

/-- In a framed text no list starts with a comma. -/
theorem not_led (h : Framed cs) : ¬ Led cs := by
  rintro (hPart | hPart)
  · have hPair := h.inside.infix hPart
    rw [List.isChain_pair] at hPair
    exact (hPair rfl).1 rfl
  · have hPair := h.inside.infix hPart
    rw [List.isChain_pair] at hPair
    exact (hPair rfl).2 rfl

end Framed

/-- Some character is seen of every token. -/
theorem visible_ne_nil (hForm : Formed ts) (hSome : ts ≠ []) :
    ts.flatMap Token.visible ≠ [] := by
  obtain ⟨t, ts, rfl⟩ := List.exists_cons_of_ne_nil hSome
  obtain ⟨c, s, hChars, -⟩ := (hForm t List.mem_cons_self).starts
  -- a string shows its quotes, any other token all that it has
  cases t with
  | string => simp [Token.visible]
  | keyword | symbol | truth | name | number => simp [Token.visible, hChars]

theorem framed_composed :
    Composed .contextFree fun ts => Formed ts ∧ Framed (ts.flatMap Token.visible) where
  -- the two halves go together, because a text is framed by its tokens and the tokens have a form
  nil := ⟨(formed_composed .contextFree).nil, .of_none (by simp) (by simp) (by simp)⟩
  append h h' := by
    refine ⟨(formed_composed .contextFree).append h.1 h'.1, ?_⟩
    rw [List.flatMap_append]
    exact h.2.append h'.2
  single hForm hOther _ := by
    refine ⟨List.forall_mem_singleton.mpr hForm, ?_⟩
    rw [List.flatMap_singleton]
    -- a token that is none of the framing symbols has none of their characters
    have hNone : ∀ c, [c] ∈ framing → c ∉ Token.visible _ :=
      fun c hFraming hMem => hOther [c] hFraming (hForm.eq_symbol hFraming hMem)
    exact .of_none (hNone _ (by decide)) (hNone _ (by decide)) (hNone _ (by decide))
  field hLoc hId h h' := by
    refine ⟨(formed_composed .contextFree).field hLoc hId h.1 h'.1, ?_⟩
    have hColon : Framed [':'] := .of_none (by decide) (by decide) (by decide)
    rw [List.flatMap_append, List.flatMap_cons]
    exact h.2.append (hColon.append h'.2)
  parentheses h := by
    refine ⟨(formed_composed .contextFree).parentheses h.1, ?_⟩
    have hClosing : Framed [')'] := .of_none (by decide) (by decide) (by decide)
    rw [enclosed, List.flatMap_cons, List.flatMap_append]
    exact h.2.enclosed (by decide) hClosing
  brackets h := by
    refine ⟨(formed_composed .contextFree).brackets h.1, ?_⟩
    have hClosing : Framed [']'] := .of_none (by decide) (by decide) (by decide)
    rw [enclosed, List.flatMap_cons, List.flatMap_append]
    exact h.2.enclosed (by decide) hClosing
  comma hSome hSome' h h' := by
    refine ⟨(formed_composed .contextFree).comma hSome hSome' h.1 h'.1, ?_⟩
    rw [List.flatMap_append, List.flatMap_cons]
    -- on both sides of the comma stands at least one token, so it is next to no bracket
    exact .comma (visible_ne_nil h.1 hSome) (visible_ne_nil h'.1 hSome') h.2 h'.2
  leading hNever := hNever.elim

/-- In a sentence of the context-free grammar no list starts with a comma. -/
theorem DerivesProgram.not_led {p : Program} (h : DerivesProgram .contextFree ts p) :
    ¬ Led (ts.flatMap Token.visible) :=
  (h.holds framed_composed).2.not_led

end NameResolution.Grammar
