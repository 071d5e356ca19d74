import NameResolution.Proofs.Grammar.AcceptingProgram
import NameResolution.Proofs.Grammar.PrintedProgram
import NameResolution.Proofs.Grammar.ReadingProgram
import NameResolution.Proofs.Grammar.Stripped
import NameResolution.Proofs.Grammar.Visible

/-!
# Reading printed programs — the same tree again, unless it accesses a field

A program that is printed and read again is the same but for positions. A field access is printed
with its left side in parentheses, and such a text is no program: its colon is behind a parenthesis,
while every colon of a program is behind a name.

* `DerivesProgram.printed_cut` — how a printed text is cut into tokens.
* `parse_print` — which programs can be printed and read again, and what is read.
-/

namespace NameResolution.Grammar

variable {ts : List Token}

/-! ## Reading a printed program -/

/-- The text of a program is cut into its printed tokens. -/
theorem DerivesProgram.printed_cut {p : Program} (h : DerivesProgram .ordered ts p) :
    ∃ rest, ClosedCut p.tokens (p.print false).toList rest ∧ skipTrivia rest = [] := by
  obtain ⟨rest, hCut, hTrivia⟩ := h.spells.cut [] trivial
  rw [List.append_nil] at hCut
  exact ⟨rest, hCut, hTrivia⟩

/-- Without an access to a field, what is printed is read again as the same tree. -/
theorem parse_print_of_no_access {p : Program} (h : DerivesProgram .ordered ts p)
    (hNone : p.hasAccess = false) :
    ∃ q, parse (p.print false) = .ok q ∧ q.unplaced = p.unplaced := by
  obtain ⟨rest, hCut, hEnd⟩ := h.printed_cut
  exact parse_accepts (h.printed hNone) hCut hEnd

/-- With an access to a field, what is printed is not read at all. -/
theorem parse_print_of_access {p q : Program} (h : DerivesProgram .ordered ts p)
    (hAccess : p.hasAccess = true) : parse (p.print false) ≠ .ok q := by
  intro hRead
  obtain ⟨rest, hCut, hEnd⟩ := h.printed_cut
  obtain ⟨us, rest', hReadCut, hEnd', hDerives⟩ := parse_reads hRead
  have hFormed : Formed us := hDerives.formed
  -- both cuts show the same characters, among them a colon behind a parenthesis
  have hShown : p.tokens.flatMap Token.visible = us.flatMap Token.visible :=
    hCut.visible_eq hReadCut h.spells.formed hFormed hEnd hEnd'
  -- the mark shows in the tokens that were read, too
  have hMark : [')', ':'] <:+: us.flatMap Token.visible := by
    obtain ⟨before, behind, hTokens⟩ := h.marked hAccess
    refine ⟨before.flatMap Token.visible, behind.flatMap Token.visible, ?_⟩
    rw [← hShown, ← hTokens, List.flatMap_append, List.flatMap_append]
    rfl
  -- but these are a sentence, where a name stands in front of every colon
  have hNamed := hDerives.colons.behind.infix hMark
  rw [List.isChain_pair] at hNamed
  exact absurd (hNamed rfl) (by decide)

/-- **Printing and reading.** What a program is printed as is a program if and only if the program
accesses no field, and then it is the same program in everything but the positions. -/
theorem parse_print {source : String} {p : Program} (h : parse source = .ok p) :
    ((∃ q, parse (p.print false) = .ok q) ↔ p.hasAccess = false) ∧
      ∀ q, parse (p.print false) = .ok q → q.unplaced = p.unplaced := by
  obtain ⟨ts, rest, -, -, hDerives⟩ := parse_reads h
  cases hAccess : p.hasAccess with
  | false =>
    obtain ⟨q, hRead, hShape⟩ := parse_print_of_no_access hDerives hAccess
    refine ⟨⟨fun _ => rfl, fun _ => ⟨q, hRead⟩⟩, ?_⟩
    intro q' hRead'
    rw [hRead] at hRead'
    cases hRead'
    exact hShape
  | true =>
    -- nothing is read, so the second half is empty
    have hNever := fun q => parse_print_of_access (q := q) hDerives hAccess
    refine ⟨⟨?_, ?_⟩, fun q hRead => absurd hRead (hNever q)⟩
    · rintro ⟨q, hRead⟩
      exact absurd hRead (hNever q)
    · intro hNone
      cases hNone

/-- Whether a source is a program that is printed as the text, with or without a field access. -/
def readsAs (source printed : String) (hasAccess : Bool) : Bool :=
  match parse source with
  | .ok p => p.print false == printed && p.hasAccess == hasAccess
  | .error _ => false

/-- The check that can be run says what it is meant to say. -/
theorem readsAs_iff {source printed : String} {hasAccess : Bool} :
    readsAs source printed hasAccess = true ↔
      ∃ p, parse source = .ok p ∧ p.print false = printed ∧ p.hasAccess = hasAccess := by
  rw [readsAs]
  cases parse source with
  | ok p => simp
  | error e => simp

/-- A name that starts with `return_` is read as a `return` of an assignment, and as the same one
again. A field access is printed as what cannot be read. -/
theorem parse_print_return_and_access :
    (∃ p, parse "void f[] [ return_ = -x * 2. ]" = .ok p ∧
      p.print false = "void f[] [\n    return (_ = ((-x) * 2)).\n]\n\n" ∧
      ∃ q, parse (p.print false) = .ok q ∧ q.unplaced = p.unplaced) ∧
    ∃ p, parse "void f[] [ a = s:x. ]" = .ok p ∧
      p.print false = "void f[] [\n    a = (s):x.\n]\n\n" ∧
      ¬ ∃ q, parse (p.print false) = .ok q := by
  -- both texts are read and printed by evaluation
  have hReturn : readsAs "void f[] [ return_ = -x * 2. ]"
      "void f[] [\n    return (_ = ((-x) * 2)).\n]\n\n" false = true := by
    decide +kernel
  have hAccess : readsAs "void f[] [ a = s:x. ]"
      "void f[] [\n    a = (s):x.\n]\n\n" true = true := by
    decide +kernel
  obtain ⟨p, hRead, hText, hNone⟩ := readsAs_iff.mp hReturn
  obtain ⟨p', hRead', hText', hSome⟩ := readsAs_iff.mp hAccess
  constructor
  · obtain ⟨hAgain, hShape⟩ := parse_print hRead
    obtain ⟨q, hReadAgain⟩ := hAgain.mpr hNone
    exact ⟨p, hRead, hText, q, hReadAgain, hShape q hReadAgain⟩
  · obtain ⟨hAgain, -⟩ := parse_print hRead'
    refine ⟨p', hRead', hText', ?_⟩
    rw [hAgain, hSome]
    exact Bool.noConfusion

end NameResolution.Grammar
