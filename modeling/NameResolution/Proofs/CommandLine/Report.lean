import NameResolution.Proofs.CommandLine.Named
import NameResolution.Proofs.CommandLine.Reading
import NameResolution.Proofs.CommandLine.Switches
import NameResolution.Proofs.Grammar.Soundness
import NameResolution.Proofs.Text.Decimal

/-!
# Reports — what a run prints and says of the program in a file

Without terminals and without a tree asked for, a run prints the annotated program or nothing and
says a few lines: how many declarations there are, and how many errors, with a line for each of
them. All of that is what the parser, the analyzer and the printer say of the text.

* `reportLines` — the lines about a program.
* `Diagnostic.text_inLine` — an error is said in one line.
* `run_reports` — the run over a file reports what the text in it comes to.
-/

namespace NameResolution

/-! ## Lines -/

/-- A number is written in one line. -/
theorem decimalText_inLine (n : Int) : '\n' ∉ (Text.decimalText n).toList := by
  have hDigits : ∀ n : Nat, '\n' ∉ Nat.toDigits 10 n := by
    intro n hMem
    exact absurd (Text.toDigits_isDigit n _ hMem) (by decide)
  cases n with
  | ofNat n =>
    rw [Text.decimalText, String.toList_ofList]
    exact hDigits n
  | negSucc n =>
    rw [Text.decimalText, String.toList_ofList, List.mem_cons, not_or]
    exact ⟨by decide, hDigits _⟩

/-- A message is one line. -/
theorem DiagnosticKind.message_inLine (kind : DiagnosticKind) : '\n' ∉ kind.message.toList := by
  cases kind <;> decide

/-- An error is said in one line. -/
theorem Diagnostic.text_inLine (d : Diagnostic) : '\n' ∉ d.text.toList := by
  have hLocation : '\n' ∉ d.location.toList := by
    rw [Diagnostic.location]
    split <;> simp [decimalText_inLine]
  rw [Diagnostic.text, String.toList_append, List.mem_append, not_or]
  exact ⟨hLocation, d.kind.message_inLine⟩

namespace CommandLine

/-- What is said of a program in a file, line by line. -/
def reportLines (words : List String) (file : String) (count : Nat) (errors : List Diagnostic) :
    List String :=
  let shown := (Path.ofString file).text
  (if Path.isBare file then ["warning: file does not have .bach extension: " ++ shown] else []) ++
    (if "-q" ∈ words then []
      else ["info: parsed " ++ Text.decimalText count ++ " declaration(s) from " ++ shown]) ++
    if errors = [] then (if "-q" ∈ words then [] else ["✓ no errors in " ++ shown])
    else ("error: found " ++ Text.decimalText errors.length ++ " error(s) in " ++ shown) ::
      errors.map fun d => "  → " ++ d.text

/-- Lines of text, each with its end. -/
def unlines (lines : List String) : String :=
  String.join (lines.map (· ++ "\n"))

theorem unlines_nil : unlines [] = "" := rfl

theorem unlines_append (lines more : List String) :
    unlines (lines ++ more) = unlines lines ++ unlines more := by
  rw [unlines, List.map_append, String.join_append]
  rfl

theorem unlines_singleton (line : String) : unlines [line] = line ++ "\n" := by
  simp [unlines]

section Plain

variable {file : String}

/-- Without colours the lines about a program are those of the report. -/
theorem warning_lines (hEnding : ".bach".toList <:+ file.toList) :
    (Style.mk false).unusualName (Path.ofString file) =
      unlines (if Path.isBare file
        then ["warning: file does not have .bach extension: " ++ (Path.ofString file).text]
        else []) := by
  rw [Style.unusualName, Path.suffix_ofString hEnding]
  cases Path.isBare file with
  | false => rfl
  | true =>
    rw [if_neg (by decide), if_pos rfl, unlines_singleton, ← String.toList_inj]
    simp [Style.warning, Style.bold]

/-- Without colours, what is said of a program that was read is one line. -/
theorem parsed_line (count : Nat) (path : Path) :
    (Style.mk false).parsed count path =
      unlines
        ["info: parsed " ++ Text.decimalText count ++ " declaration(s) from " ++ path.text] := by
  rw [unlines_singleton, ← String.toList_inj]
  simp [Style.parsed, Style.info, Style.bold]

/-- Without colours, what is said of a program without errors is one line. -/
theorem noErrors_line (path : Path) :
    (Style.mk false).noErrors path = unlines ["✓ no errors in " ++ path.text] := by
  rw [unlines_singleton, ← String.toList_inj]
  simp [Style.noErrors, Style.success, Style.bold]

/-- Without colours, what is said of a program with errors is a line with their number and a line
for each. -/
theorem found_lines (errors : List Diagnostic) (path : Path) :
    (Style.mk false).found errors path =
      unlines
        (("error: found " ++ Text.decimalText errors.length ++ " error(s) in " ++ path.text) ::
          errors.map fun d => "  → " ++ d.text) := by
  -- the line with the number of errors, and the lines of the errors
  rw [Style.found, ← List.singleton_append, unlines_append, unlines_singleton]
  refine congrArg₂ (· ++ ·) ?_ ?_
  · rw [← String.toList_inj]
    simp [Style.error, Style.bold]
  · rw [unlines, List.map_map]
    refine congrArg String.join (List.map_congr_left fun d _ => ?_)
    rw [← String.toList_inj]
    simp [Style.diagnostic, Style.plain]

/-- All that is said of a program, when the switches are those of the words. -/
theorem said_eq (hEnding : ".bach".toList <:+ file.toList) (words : List String) (count : Nat)
    (errors : List Diagnostic) :
    (Style.mk false).unusualName (Path.ofString file) ++
        (if "-q" ∈ words then "" else (Style.mk false).parsed count (Path.ofString file)) ++
        (if errors = [] then (if "-q" ∈ words then ""
            else (Style.mk false).noErrors (Path.ofString file))
          else (Style.mk false).found errors (Path.ofString file)) =
      unlines (reportLines words file count errors) := by
  rw [reportLines, unlines_append, unlines_append, warning_lines hEnding, parsed_line,
    noErrors_line, found_lines]
  simp only [apply_ite unlines, unlines_nil]

end Plain

/-! ## Runs -/

/-- The run over a text that is a program. -/
theorem runOn_program {file text : String} {p : Program} (words : List String)
    (hEnding : ".bach".toList <:+ file.toList)
    (hSource : Grammar.parse (sourceOf text) = .ok p) :
    ∃ q a, Analyzer.new.analyze p = .ok (q, a) ∧
      runOn (Options.after { file := file } words) (Style.mk false) (Path.ofString file)
          (.bytes text.toUTF8) =
        { ending := .exit (if a.errors = [] then 0 else 1)
          stdout := if "--unparse" ∈ words ∧ "--check" ∉ words then q.print true else ""
          stderr := unlines (reportLines words file p.decls.length a.errors) } := by
  obtain ⟨q, a, hAnalyze, hRun⟩ := runProgram_eq (o := Options.after { file := file } words) rfl
    (Style.mk false) (Path.ofString file) ((Style.mk false).unusualName (Path.ofString file)) p
  refine ⟨q, a, hAnalyze, ?_⟩
  -- the words are the only switches, so each option is about one of them
  have hQuiet : (Options.after { file := file } words).quiet = true ↔ "-q" ∈ words := by
    simp [Options.after]
  have hPrints : ((Options.after { file := file } words).unparse &&
      !(Options.after { file := file } words).check) = true ↔
        "--unparse" ∈ words ∧ "--check" ∉ words := by
    simp [Options.after]
  rw [runOn_toUTF8, hSource]
  simp only [hRun, hQuiet, hPrints, said_eq hEnding]

/-- **Reports.** Let the arguments be words for switches and the name of a file that ends with
`.bach`, and let the file hold a text whose reading stops at no number. Without colours the run ends
with status 0 exactly if the text is a program and its analysis reports nothing, else with status 1.
It prints the annotated program if that is asked for, whether there are errors or not, and nothing
otherwise. What it says of a program are the lines of the report, one for each error. -/
theorem run_reports {m : Type → Type} [Monad m] [LawfulMonad m] {read : Path → m Content}
    {outIsTty errIsTty : Bool} {words arguments : List String} {file text : String}
    (hWords : ∀ word ∈ words, word ∈ reportWords) (hNames : Names file words arguments)
    (hEnding : ".bach".toList <:+ file.toList)
    (hRead : read (Path.ofString file) = pure (.bytes text.toUTF8))
    (hPlain : outIsTty = false ∨ errIsTty = false ∨ "--no-color" ∈ words)
    (hParse : ∀ digits, Grammar.parse (sourceOf text) ≠ .error (.numberTooLong digits)) :
    ∃ r, run read outIsTty errIsTty arguments = pure r ∧
      (r.ending = .exit 0 ∨ r.ending = .exit 1) ∧
      (r.ending = .exit 0 ↔ ∃ p q a, Grammar.parse (sourceOf text) = .ok p ∧
        Analyzer.new.analyze p = .ok (q, a) ∧ a.errors = []) ∧
      (Grammar.parse (sourceOf text) = .error .invalid → r.stdout = "") ∧
      ∀ p, Grammar.parse (sourceOf text) = .ok p →
        ∃ q a, Analyzer.new.analyze p = .ok (q, a) ∧
          r.stdout = (if "--unparse" ∈ words ∧ "--check" ∉ words then q.print true else "") ∧
          r.stderr = unlines (reportLines words file p.decls.length a.errors) ∧
          ∀ d ∈ a.errors, '\n' ∉ d.text.toList := by
  have hStyle : (outIsTty && errIsTty &&
      !(Options.after { file := file } words).noColor) = false := by
    -- one of the three turns the colours off
    obtain h | h | h := hPlain <;> simp [Options.after, h]
  have hRun := run_of_accepted (ofArguments_names hWords hNames) hRead outIsTty errIsTty
  rw [hStyle] at hRun
  cases hSource : Grammar.parse (sourceOf text) with
  | error e =>
    cases e with
    | numberTooLong digits => exact absurd hSource (hParse digits)
    | invalid =>
      rw [runOn_toUTF8, hSource] at hRun
      refine ⟨_, hRun, .inr rfl, ⟨fun hStatus => ?_, ?_⟩, fun _ => rfl, fun p hProgram => ?_⟩
      · cases hStatus
      · rintro ⟨p, q, a, hProgram, -⟩
        cases hProgram
      · cases hProgram
  | ok p =>
    obtain ⟨q, a, hAnalyze, hReport⟩ := runOn_program words hEnding hSource
    refine ⟨_, hRun.trans (congrArg pure hReport), ?_, ?_, ?_, ?_⟩
    · by_cases hErrors : a.errors = []
      · exact .inl (by rw [if_pos hErrors])
      · exact .inr (by rw [if_neg hErrors])
    · constructor
      · intro hStatus
        refine ⟨p, q, a, rfl, hAnalyze, ?_⟩
        by_contra hErrors
        rw [if_neg hErrors] at hStatus
        cases hStatus
      · -- the text is one program, and its analysis has one result
        rintro ⟨p', q', a', hSame, hAnalyze', hErrors⟩
        cases hSame
        obtain ⟨rfl, rfl⟩ : q = q' ∧ a = a' := by simpa using hAnalyze.symm.trans hAnalyze'
        rw [if_pos hErrors]
    · intro hInvalid
      cases hInvalid
    · intro p' hSame
      cases hSame
      exact ⟨q, a, hAnalyze, rfl, rfl, fun d _ => d.text_inLine⟩

/-- A program with one error, its lines ended as on other systems. -/
def listedError : String :=
  "integer x.\r\nvoid f[] [\r\n    y = x.\r\n]\r\n"

/-- A run that prints the annotated program and reports one error. -/
theorem listedError_reported :
    (∀ word ∈ ["--unparse"], word ∈ reportWords) ∧
      Names "p.bach" ["--unparse"] ["p.bach", "--unparse"] ∧
      ".bach".toList <:+ "p.bach".toList ∧
      oneFile "p.bach" listedError.toUTF8 (Path.ofString "p.bach") = .bytes listedError.toUTF8 ∧
      ∃ r, run (oneFile "p.bach" listedError.toUTF8) false false ["p.bach", "--unparse"] = pure r ∧
        r.ending = .exit 1 ∧
        r.stdout = "integer x.\nvoid f[] [\n    y = x\x7binteger\x7d.\n]\n\n" ∧
        r.stderr = unlines ["info: parsed 2 declaration(s) from p.bach",
          "error: found 1 error(s) in p.bach",
          "  → (line 3, col 5) Identifier undeclared"] := by
  have hWords : ∀ word ∈ ["--unparse"], word ∈ reportWords := by decide
  have hNames : Names "p.bach" ["--unparse"] ["p.bach", "--unparse"] :=
    .among [] ["--unparse"] (by decide)
  have hEnding : ".bach".toList <:+ "p.bach".toList := by decide
  have hRead : oneFile "p.bach" listedError.toUTF8 (Path.ofString "p.bach") =
      .bytes listedError.toUTF8 := rfl
  have hSeen : (Grammar.parse (sourceOf listedError)).toOption.map (fun p =>
      (p.decls.length, (Analyzer.new.analyze p).toOption.map fun found =>
        (found.1.print true, found.2.errors))) =
      some (2, some ("integer x.\nvoid f[] [\n    y = x\x7binteger\x7d.\n]\n\n",
        [⟨.undeclared, some 3, some 5⟩])) := by
    decide +kernel
  obtain ⟨p, hSource, hFound⟩ := Grammar.exists_of_seen hSeen
  -- the theorem says everything about the run but the program, which is the one that was seen
  obtain ⟨r, hRun, hStatus, hSuccess, -, hProgram⟩ := run_reports (m := Id) hWords hNames hEnding
    hRead (.inl rfl) (by rw [hSource]; nofun)
  obtain ⟨q, a, hAnalyze, hOut, hErr, -⟩ := hProgram p hSource
  obtain ⟨hCount, hResult⟩ := Prod.mk.inj hFound
  rw [hAnalyze] at hResult
  obtain ⟨hText, hErrors⟩ := Prod.mk.inj (Option.some.inj hResult)
  refine ⟨hWords, hNames, hEnding, hRead, r, hRun, ?_, ?_, ?_⟩
  · refine hStatus.resolve_left fun hZero => ?_
    -- success would mean that the analysis reports nothing
    obtain ⟨p', q', a', hSource', hAnalyze', hNone⟩ := hSuccess.mp hZero
    cases hSource.symm.trans hSource'
    cases hAnalyze.symm.trans hAnalyze'
    rw [hErrors] at hNone
    cases hNone
  · rw [hOut, if_pos (by decide)]
    exact hText
  · rw [hErr, hCount, hErrors]
    decide +kernel

/-- A name that is its suffix alone is warned about, though it ends like the others. -/
theorem bare_name_warned :
    Names ".bach" ["-q"] ["-q", ".bach"] ∧ ".bach".toList <:+ ".bach".toList ∧
      oneFile ".bach" "".toUTF8 (Path.ofString ".bach") = .bytes "".toUTF8 ∧
      Grammar.parse (sourceOf "") = .ok ⟨[]⟩ ∧
      ∃ r, run (oneFile ".bach" "".toUTF8) false false ["-q", ".bach"] = pure r ∧
        r.ending = .exit 0 ∧ r.stderr ≠ "" := by
  refine ⟨.among ["-q"] [] (by decide), List.suffix_refl _, rfl, rfl, ?_⟩
  have hSaid : Id.run (run (oneFile ".bach" "".toUTF8) false false ["-q", ".bach"]) =
      { ending := .exit 0
        stderr := "warning: file does not have .bach extension: .bach\n" } := by
    decide +kernel
  exact ⟨_, hSaid, rfl, by decide⟩

end CommandLine

end NameResolution
