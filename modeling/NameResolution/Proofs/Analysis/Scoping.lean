import NameResolution.Proofs.Analysis.Walk

/-!
# Lexical scoping — every use stands for its innermost declaration

The walk keeps a stack of scopes that it changes as it goes. What comes out can be said about the
tree alone: the scopes around a use, from the inside out, and the accepted declarations before it
in each of them.
-/

namespace NameResolution

/-- **Lexical scoping.** An analysis of a fresh program does not fail, and only adds symbols to it.
Each name that is looked up in scopes then carries the very symbol of the first accepted
declaration of it in the innermost scope around it that has one, and no declaration carries the
undefined symbol. A name without one carries the undefined symbol, and the names reported as
undeclared are exactly these, each once and in the order of the text. -/
theorem uses_denote_innermost_declaration (a : Analyzer) {p : Program} (hFresh : p.Fresh) :
    ∃ q b, a.analyze p = .ok (q, b) ∧ q.bare = p.bare ∧
      (∀ s ∈ q.sites, ∀ u ∈ s.spot.lookedUp,
        (∀ symbol, s.scopes.find u.name = some symbol →
          u.symbol? = some symbol ∧ symbol ≠ .undefined) ∧
        (s.scopes.find u.name = none → u.symbol? = some .undefined)) ∧
      b.errors.filter (fun d => d.kind = .undeclared) =
        (q.sites.flatMap Site.undeclared).map fun u => .located .undeclared u.pos := by
  obtain ⟨q, b, hAnalyze, hBare, hSettled⟩ := analyze_settles a hFresh
  -- a declared name carries the symbol that is found, any other the undefined one
  refine ⟨q, b, hAnalyze, hBare, fun s hs u hu => ⟨fun symbol hFind => ?_, fun hFind => ?_⟩,
    hSettled.undeclared⟩
  · have hSymbol := hSettled.resolved s hs u hu
    rw [hFind] at hSymbol
    refine ⟨hSymbol, ?_⟩
    rintro rfl
    exact hSettled.defined s hs u hu hFind
  · have hSymbol := hSettled.resolved s hs u hu
    rwa [hFind] at hSymbol

/-- `integer x. void f[boolean x] [ if (x) { integer y. y = x. } y = x. f(z). ]`, with each name at
a column of its own. The formal hides the global `x`, and the `y` of the block is gone after it. -/
def shadowingProgram : Program :=
  ⟨[.var ⟨.integer, ⟨⟨1, 9⟩, "x", none⟩, false⟩,
    .func
      { result := .void
        id := ⟨⟨2, 6⟩, "f", none⟩
        formals := [⟨.boolean, ⟨⟨2, 16⟩, "x", none⟩⟩]
        body := ⟨[],
          [.ifThen (.loc (.var ⟨⟨3, 5⟩, "x", none⟩))
            ⟨[⟨.integer, ⟨⟨4, 11⟩, "y", none⟩, false⟩],
              [.assign (.var ⟨⟨5, 3⟩, "y", none⟩) (.loc (.var ⟨⟨5, 7⟩, "x", none⟩))]⟩,
            .assign (.var ⟨⟨7, 1⟩, "y", none⟩) (.loc (.var ⟨⟨7, 5⟩, "x", none⟩)),
            .call ⟨⟨8, 1⟩, "f", none⟩ [.loc (.var ⟨⟨8, 3⟩, "z", none⟩)]]⟩ }]⟩

/-- The hypothesis can be met: names without symbols, in scopes that hide one another. -/
theorem shadowingProgram_uses_denote :
    shadowingProgram.Fresh ∧
    ∃ q b, Analyzer.new.analyze shadowingProgram = .ok (q, b) ∧
      q.bare = shadowingProgram.bare ∧
      (∀ s ∈ q.sites, ∀ u ∈ s.spot.lookedUp,
        (∀ symbol, s.scopes.find u.name = some symbol →
          u.symbol? = some symbol ∧ symbol ≠ .undefined) ∧
        (s.scopes.find u.name = none → u.symbol? = some .undefined)) ∧
      b.errors.filter (fun d => d.kind = .undeclared) =
        (q.sites.flatMap Site.undeclared).map fun u => .located .undeclared u.pos := by
  have hFresh : shadowingProgram.Fresh := by
    unfold Program.Fresh
    decide
  exact ⟨hFresh, uses_denote_innermost_declaration Analyzer.new hFresh⟩

end NameResolution
