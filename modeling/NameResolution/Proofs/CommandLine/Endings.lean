import NameResolution.Proofs.CommandLine.Reading
import NameResolution.Proofs.Grammar.Halting
import NameResolution.Proofs.Grammar.Soundness

/-!
# Endings — how a run over a readable file ends

A run ends with status 0 or 1, whatever the bytes of its file are, but for two kinds of them: those
of no text, and those of a text in which the reading stops at a number with too many digits. A
program with errors, and a text that is no program, are reported in front of status 1.

* `Ending.Proper`, `Legible` — an ending with a status, and the bytes that lead to one.
* `Style.Tells` — there is a line about an error.
* `run_ends` — the ending of a run, whatever the bytes are.
-/

namespace NameResolution.CommandLine

/-! ## Endings and bytes -/

/-- The run ends with the status for success or with the one for errors. -/
def Ending.Proper (ending : Ending) : Prop :=
  ending = .exit 0 ∨ ending = .exit 1

/-- Both of these statuses are proper. -/
theorem Ending.exit_proper (c : Prop) [Decidable c] : (exit (if c then 0 else 1)).Proper := by
  split
  · exact .inl rfl
  · exact .inr rfl

/-- A run that fails has no status. -/
theorem Ending.failure_not_proper (failure : Failure) : ¬ (Ending.failure failure).Proper := by
  rintro (h | h) <;> cases h

/-- The bytes are those of a text, and its reading stops at no number. -/
def Legible (bytes : ByteArray) : Prop :=
  ∃ text : String, text.toUTF8 = bytes ∧
    ∀ digits, Grammar.parse (sourceOf text) ≠ .error (.numberTooLong digits)

/-- There is a line about an error in what is said. -/
def Style.Tells (style : Style) (said : String) : Prop :=
  ∃ before message after, said = before ++ style.error message ++ after

/-! ## Runs -/

/-- A run over a program ends with a proper status. -/
theorem runProgram_proper (o : Options) (style : Style) (path : Path) (before : String)
    (p : Program) : (runProgram o style path before p).ending.Proper := by
  cases hTree : o.ast with
  | true =>
    rw [runProgram, if_pos hTree]
    exact .inl rfl
  | false =>
    obtain ⟨q, a, -, hRun⟩ := runProgram_eq hTree style path before p
    rw [hRun]
    exact Ending.exit_proper _

/-- The errors of a program are told, unless only its tree is asked for. -/
theorem runProgram_errors (o : Options) (style : Style) (path : Path) (before : String)
    (p : Program) :
    ∃ q a, Analyzer.new.analyze p = .ok (q, a) ∧
      ((runProgram o style path before p).ending = .exit 1 ↔ o.ast = false ∧ a.errors ≠ []) ∧
      ((runProgram o style path before p).ending = .exit 1 →
        style.Tells (runProgram o style path before p).stderr) := by
  have hZero : Ending.exit 0 ≠ .exit 1 := by decide
  cases hTree : o.ast with
  | true =>
    -- with the tree the analysis is not asked for anything, but it would have an answer
    obtain ⟨q, a, hAnalyze, -⟩ := analyze_runs .new p
    rw [runProgram, if_pos hTree]
    exact ⟨q, a, hAnalyze, ⟨fun h => absurd h hZero, fun h => absurd h.1 Bool.noConfusion⟩,
      fun h => absurd h hZero⟩
  | false =>
    obtain ⟨q, a, hAnalyze, hRun⟩ := runProgram_eq hTree style path before p
    refine ⟨q, a, hAnalyze, ?_⟩
    rw [hRun]
    -- the status and the lines depend on the list of errors alone
    by_cases hErrors : a.errors = []
    · rw [if_pos hErrors]
      exact ⟨⟨fun h => absurd h hZero, fun h => absurd hErrors h.2⟩, fun h => absurd h hZero⟩
    · rw [if_neg hErrors, if_neg hErrors]
      exact ⟨⟨fun _ => ⟨rfl, hErrors⟩, fun _ => rfl⟩, fun _ =>
        ⟨_, _, _, String.append_assoc.symm⟩⟩

/-- Bytes that are no text end the run at once. -/
theorem runOn_not_text {bytes : ByteArray} (h : ∀ text : String, text.toUTF8 ≠ bytes) (o : Options)
    (style : Style) (path : Path) : runOn o style path (.bytes bytes) =
      { ending := .failure .undecodable, stderr := style.unusualName path } := by
  rw [runOn]
  simp only [decode_eq_none.mpr h]

/-- The ending is proper exactly if the bytes are legible. -/
theorem runOn_proper (o : Options) (style : Style) (path : Path) (bytes : ByteArray) :
    (runOn o style path (.bytes bytes)).ending.Proper ↔ Legible bytes := by
  by_cases hText : ∃ text : String, text.toUTF8 = bytes
  · obtain ⟨text, rfl⟩ := hText
    -- no other text has these bytes
    have hLegible : Legible text.toUTF8 ↔
        ∀ digits, Grammar.parse (sourceOf text) ≠ .error (.numberTooLong digits) := by
      refine ⟨fun ⟨text', hSame, hParse⟩ => ?_, fun hParse => ⟨text, rfl, hParse⟩⟩
      rwa [toUTF8_inj hSame] at hParse
    rw [hLegible, runOn_toUTF8]
    split
    · rename_i hParse
      rw [hParse]
      exact ⟨fun _ => nofun, fun _ => .inr rfl⟩
    · rename_i digits hParse
      exact ⟨fun h => absurd h (Ending.failure_not_proper _), fun h => absurd hParse (h digits)⟩
    · rename_i p hParse
      rw [hParse]
      exact ⟨fun _ => nofun, fun _ => runProgram_proper _ _ _ _ p⟩
  · rw [runOn_not_text (not_exists.mp hText)]
    exact ⟨fun h => absurd h (Ending.failure_not_proper _),
      fun ⟨text, hBytes, _⟩ => absurd ⟨text, hBytes⟩ hText⟩

/-- Only bytes that are no text, and numbers with too many digits, are failures. -/
theorem runOn_failure {o : Options} {style : Style} {path : Path} {bytes : ByteArray}
    {failure : Failure} (h : (runOn o style path (.bytes bytes)).ending = .failure failure) :
    (failure = .undecodable ∧ ∀ text : String, text.toUTF8 ≠ bytes) ∨
      ∃ (text : String) (digits : Nat), text.toUTF8 = bytes ∧
        failure = .numberTooLong digits ∧ Grammar.maxDigits < digits ∧
        Grammar.RunOfDigits digits (sourceOf text).toList := by
  by_cases hText : ∃ text : String, text.toUTF8 = bytes
  · obtain ⟨text, rfl⟩ := hText
    rw [runOn_toUTF8] at h
    split at h
    · cases h
    · rename_i digits hParse
      cases h
      exact .inr ⟨text, digits, rfl, rfl, Grammar.parse_numberTooLong hParse⟩
    · -- a program never fails
      rename_i p hParse
      have hProper := runProgram_proper o style path (style.unusualName path) p
      rw [h] at hProper
      exact absurd hProper (Ending.failure_not_proper failure)
  · have hNone := not_exists.mp hText
    -- the bytes cannot be decoded, so the run fails there
    rw [runOn_not_text hNone] at h
    cases h
    exact .inl ⟨rfl, hNone⟩

/-! ## Whole runs -/

/-- **Endings.** Let the arguments be accepted and the file be read. The run ends with status 0 or 1
exactly if the bytes are those of a text whose reading stops at no number. Otherwise they are not
those of a text, or there is a number with too many digits in it. A text that is no program ends the
run with status 1 and a line about the error, and so does a program with errors.

Reading and resolving follow the nesting of a program to any depth. An actual run ends in this way
for programs that are nested no deeper than the machine it runs on can follow. -/
theorem run_ends {m : Type → Type} [Monad m] [LawfulMonad m] {read : Path → m Content}
    (outIsTty errIsTty : Bool) {arguments : List String} {o : Options} {bytes : ByteArray}
    (hAccepted : Options.ofArguments arguments = .ok o)
    (hRead : read (Path.ofString o.file) = pure (.bytes bytes)) :
    ∃ r, run read outIsTty errIsTty arguments = pure r ∧
      (r.ending.Proper ↔ Legible bytes) ∧
      (∀ failure, r.ending = .failure failure →
        (failure = .undecodable ∧ ∀ text : String, text.toUTF8 ≠ bytes) ∨
        ∃ (text : String) (digits : Nat), text.toUTF8 = bytes ∧
          failure = .numberTooLong digits ∧ Grammar.maxDigits < digits ∧
          Grammar.RunOfDigits digits (sourceOf text).toList) ∧
      ∀ text : String, text.toUTF8 = bytes →
        (Grammar.parse (sourceOf text) = .error .invalid → r.ending = .exit 1 ∧
          (Style.mk (outIsTty && errIsTty && !o.noColor)).Tells r.stderr) ∧
        ∀ p, Grammar.parse (sourceOf text) = .ok p →
          ∃ q a, Analyzer.new.analyze p = .ok (q, a) ∧
            (r.ending = .exit 1 ↔ o.ast = false ∧ a.errors ≠ []) ∧
            (r.ending = .exit 1 →
              (Style.mk (outIsTty && errIsTty && !o.noColor)).Tells r.stderr) := by
  refine ⟨_, run_of_accepted hAccepted hRead outIsTty errIsTty, ?_⟩
  refine ⟨runOn_proper _ _ _ bytes, fun failure h => runOn_failure h, ?_⟩
  rintro text rfl
  rw [runOn_toUTF8]
  refine ⟨fun hParse => ?_, fun p hParse => ?_⟩
  · rw [hParse]
    -- nothing is said behind the line about the error
    exact ⟨rfl, _, _, "", String.append_empty.symm⟩
  · rw [hParse]
    exact runProgram_errors _ _ _ _ p

/-- A program that uses a name without a declaration. -/
def undeclaredUse : String := "void f[][x = 1.]\r\n"

/-- A run that reports one error. -/
theorem undeclaredUse_run_ends :
    Options.ofArguments ["-q", "p.bach"] = .ok { file := "p.bach", quiet := true } ∧
      oneFile "p.bach" undeclaredUse.toUTF8 (Path.ofString "p.bach") =
        .bytes undeclaredUse.toUTF8 ∧
      Legible undeclaredUse.toUTF8 ∧
      ∃ r, run (oneFile "p.bach" undeclaredUse.toUTF8) true false ["-q", "p.bach"] = pure r ∧
        r.ending = .exit 1 ∧ (Style.mk false).Tells r.stderr := by
  have hAccepted : Options.ofArguments ["-q", "p.bach"] =
      .ok { file := "p.bach", quiet := true } := by
    decide +kernel
  have hRead : oneFile "p.bach" undeclaredUse.toUTF8 (Path.ofString "p.bach") =
      .bytes undeclaredUse.toUTF8 := rfl
  have hSeen : (Grammar.parse (sourceOf undeclaredUse)).toOption.map (fun p =>
      (Analyzer.new.analyze p).toOption.map fun found => found.2.errors) =
        some (some [⟨.undeclared, some 1, some 10⟩]) := by
    decide +kernel
  obtain ⟨p, hParse, hErrors⟩ := Grammar.exists_of_seen hSeen
  obtain ⟨r, hRun, hProper, -, hTexts⟩ := run_ends true false hAccepted hRead
  -- the program is read and analyzed in the run as it is here
  obtain ⟨q, a, hAnalyze, hExit, hTells⟩ := (hTexts undeclaredUse rfl).2 p hParse
  rw [hAnalyze] at hErrors
  have hOne : a.errors = [⟨.undeclared, some 1, some 10⟩] := Option.some.inj hErrors
  have hSome : a.errors ≠ [] := hOne ▸ List.cons_ne_nil _ _
  have hStatus : r.ending = .exit 1 := hExit.mpr ⟨rfl, hSome⟩
  exact ⟨hAccepted, hRead, hProper.mp (.inr hStatus), r, hRun, hStatus, hTells hStatus⟩

/-- A byte that is no text ends the run without a status. -/
theorem lone_byte_not_proper :
    Options.ofArguments ["p.bach"] = .ok { file := "p.bach" } ∧
      oneFile "p.bach" (ByteArray.mk #[255]) (Path.ofString "p.bach") =
        .bytes (ByteArray.mk #[255]) ∧
      ¬ ∃ r, run (oneFile "p.bach" (ByteArray.mk #[255])) false false ["p.bach"] = pure r ∧
        r.ending.Proper := by
  have hEnding : Id.run (run (oneFile "p.bach" (ByteArray.mk #[255])) false false ["p.bach"]) =
      { ending := .failure .undecodable } := by
    decide +kernel
  refine ⟨by decide +kernel, rfl, ?_⟩
  rintro ⟨r, hRun, hProper⟩
  rw [show r = { ending := .failure .undecodable } from hRun.symm.trans hEnding] at hProper
  exact Ending.failure_not_proper _ hProper

end NameResolution.CommandLine
