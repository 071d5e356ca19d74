import NameResolution.Analysis.Analyzer

/-!
# Moments — every state that a run passes

A run takes one step after another. `Passes part s u` says that the run of `part` from the state
`s` passes the state `u`: at its beginning, between two of its steps, or at its end. What each step
keeps holds in all of these states, and so at every moment of a run.

* `Step` — what one step makes of a state.
* `Passes.keeps` — from what a step keeps to what holds at every moment.
* `passes_end` — the end of a run is one of its moments.
* `Reported` — the sink holds what it held before the run, and the errors found since.
* `moments_reported` — the sink at every moment of an analysis.
-/

namespace NameResolution.Analysis

/-! ## Steps -/

/-- What one step of a walk makes of a state. -/
inductive Step (s : State) : State → Prop where
  /-- The symbol table is looked at. -/
  | look : Step s s
  /-- The symbol table is replaced. -/
  | swap (t : SymbolTable) : Step s { s with table := t }
  /-- An error is reported. -/
  | tell (d : Diagnostic) : Step s (s.report d)

/-- The run of a part from the state `s` passes the state `u`. -/
inductive Passes {α : Type} : Resolve α → State → State → Prop where
  /-- The state in which the rest of the part begins. -/
  | here (part : Resolve α) (s : State) : Passes part s s
  | look {next : SymbolTable → Resolve α} {s u : State} (h : Passes (next s.table) s u) :
      Passes (.look next) s u
  | swap {t : SymbolTable} {next : Resolve α} {s u : State}
      (h : Passes next { s with table := t } u) : Passes (.swap t next) s u
  | tell {d : Diagnostic} {next : Resolve α} {s u : State}
      (h : Passes next (s.report d) u) : Passes (.tell d next) s u

variable {α : Type} {part : Resolve α} {s s' u : State} {x : α}

/-- What every step keeps holds at every moment, if it does at the beginning. -/
theorem Passes.keeps {holds : State → Prop} (hStep : ∀ s s', Step s s' → holds s → holds s')
    (h : Passes part s u) (hBegin : holds s) : holds u := by
  induction h with
  | here part s => exact hBegin
  | look _ ih => exact ih (hStep _ _ .look hBegin)
  | swap _ ih => exact ih (hStep _ _ (.swap _) hBegin)
  | tell _ ih => exact ih (hStep _ _ (.tell _) hBegin)

/-- A run that succeeds has passed the state it ends in. -/
theorem passes_end (h : part.run s = .ok (x, s')) : Passes part s s' := by
  induction part generalizing s with
  | done y =>
    obtain ⟨-, rfl⟩ := Prod.mk.inj (Except.ok.inj h)
    exact .here _ s
  | fail e => cases h
  | look next ih => exact .look (ih s.table h)
  | swap t next ih => exact .swap (ih h)
  | tell d next ih => exact .tell (ih h)

/-- From each moment of a run that succeeds, the rest of the run leads to the same end. -/
theorem Passes.rest (h : Passes part s u) (hRun : part.run s = .ok (x, s')) :
    ∃ rest : Resolve α, rest.run u = .ok (x, s') := by
  induction h with
  | here part s => exact ⟨part, hRun⟩
  | look _ ih => exact ih hRun
  | swap _ ih => exact ih hRun
  | tell _ ih => exact ih hRun

/-! ## The errors found so far -/

/-- Errors that are reported stay reported. -/
theorem Step.grows (h : Step s s') : s.diagnostics <+: s'.diagnostics := by
  cases h with
  | look => exact List.prefix_refl _
  | swap t => exact List.prefix_refl _
  | tell d => exact List.prefix_append _ _

/-- At every moment of a run, the errors found so far are the first ones of those found in the
end. -/
theorem Passes.grows (h : Passes part s u) (hRun : part.run s = .ok (x, s')) :
    u.diagnostics <+: s'.diagnostics := by
  obtain ⟨rest, hRest⟩ := h.rest hRun
  have hKept : ∀ v v', Step v v' → u.diagnostics <+: v.diagnostics →
      u.diagnostics <+: v'.diagnostics := fun _ _ hStep hGrown => hGrown.trans hStep.grows
  exact (passes_end hRest).keeps hKept (List.prefix_refl _)

/-! ## The sink -/

/-- The sink holds `held`, which it held before, and the errors found since. -/
def Reported (held : List Diagnostic) (s : State) : Prop :=
  s.sink.diagnostics = held ++ s.diagnostics

/-- A step records an error and passes it on, or it does neither. -/
theorem Step.reported {held : List Diagnostic} (h : Step s s') (hReported : Reported held s) :
    Reported held s' := by
  cases h with
  | look => exact hReported
  | swap t => exact hReported
  | tell d =>
    calc (s.sink.report d).diagnostics
        = (held ++ s.diagnostics) ++ [d] := congrArg (· ++ [d]) hReported
      _ = held ++ (s.diagnostics ++ [d]) := List.append_assoc _ _ _

variable {a b : Analyzer} {p q : Program}

/-- When a run begins, no error is found, and the sink holds what is not emptied. -/
theorem start_reported (a : Analyzer) : Reported a.start.sink.diagnostics a.start :=
  (List.append_nil _).symm

/-- At every moment of an analysis the sink holds what it held at the beginning and the errors that
the analysis has found so far. -/
theorem moments_reported (h : Passes p.resolve a.start u) :
    Reported a.start.sink.diagnostics u :=
  h.keeps (fun _ _ hStep => hStep.reported) (start_reported a)

/-- What an analyzer keeps is what the state holds in which the run has ended. -/
theorem analyze_run (h : a.analyze p = .ok (q, b)) :
    b.ownsSink = a.ownsSink ∧ p.resolve.run a.start = .ok (q, ⟨b.table, b.errors, b.sink⟩) := by
  rw [Analyzer.analyze] at h
  cases hRun : p.resolve.run a.start with
  | error e =>
    rw [hRun] at h
    cases h
  | ok answer =>
    rw [hRun] at h
    cases h
    exact ⟨rfl, rfl⟩

end NameResolution.Analysis
