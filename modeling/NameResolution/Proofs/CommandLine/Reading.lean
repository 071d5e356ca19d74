import NameResolution.CommandLine.Run
import NameResolution.Proofs.Analysis.Trace

/-!
# Reading — from the bytes of a file to what a run says

The bytes of a file are those of one text or of none, and the text is a program or not. The analysis
of a program does not fail, so nothing but what it finds is left to say.

* `decode_toUTF8`, `decode_eq_none` — the text that a file is read as.
* `run_of_accepted`, `runOn_toUTF8` — a run goes by what its file and the text in it are read as.
* `runProgram_eq` — what a run says of a program.
-/

namespace NameResolution.CommandLine

/-! ## Texts -/

variable {bytes : ByteArray} {text : String}

/-- Bytes are decoded to a text exactly if they are the bytes of the text. -/
theorem fromUTF8?_eq_some : String.fromUTF8? bytes = some text ↔ text.toUTF8 = bytes := by
  constructor
  · intro h
    rw [String.fromUTF8?] at h
    split at h
    · cases h
      rfl
    · cases h
  · rintro rfl
    simp only [String.fromUTF8?, String.toUTF8_eq_toByteArray, dif_pos text.isValidUTF8]
    rfl

/-- Different texts have different bytes. -/
theorem toUTF8_inj {text text' : String} (h : text.toUTF8 = text'.toUTF8) : text = text' :=
  Option.some.inj ((fromUTF8?_eq_some.mpr h).symm.trans (fromUTF8?_eq_some.mpr rfl))

/-- The source that a text in a file is read as, with all its line ends as line feeds. -/
def sourceOf (text : String) : String :=
  String.ofList (Text.normalizeNewlines text.toList)

/-- The bytes of a text are decoded to the source that it holds. -/
theorem decode_toUTF8 (text : String) : decode text.toUTF8 = some (sourceOf text) := by
  rw [decode, fromUTF8?_eq_some.mpr rfl, Option.map_some, sourceOf]

/-- Only the bytes of a text are read as one. -/
theorem decode_eq_none : decode bytes = none ↔ ∀ text : String, text.toUTF8 ≠ bytes := by
  rw [decode, Option.map_eq_none_iff, Option.eq_none_iff_forall_ne_some]
  exact forall_congr' fun text => not_congr fromUTF8?_eq_some

/-! ## Runs -/

/-- With arguments that are accepted, and a content that is read, a run says what it says of the
content. -/
theorem run_of_accepted {m : Type → Type} [Monad m] [LawfulMonad m] {read : Path → m Content}
    {arguments : List String} {o : Options} {content : Content}
    (hAccepted : Options.ofArguments arguments = .ok o)
    (hRead : read (Path.ofString o.file) = pure content) (outIsTty errIsTty : Bool) :
    run read outIsTty errIsTty arguments =
      pure (runOn o ⟨outIsTty && errIsTty && !o.noColor⟩ (Path.ofString o.file) content) := by
  rw [run, hAccepted]
  show (do
    let content ← read (Path.ofString o.file)
    pure (runOn o _ (Path.ofString o.file) content)) = _
  rw [hRead, pure_bind]

/-- The run over a file goes by what its text is read as. -/
theorem runOn_toUTF8 (o : Options) (style : Style) (path : Path) (text : String) :
    runOn o style path (.bytes text.toUTF8) =
      match Grammar.parse (sourceOf text) with
      | .error .invalid =>
        { ending := .exit 1, stderr := style.unusualName path ++ style.notParsed path }
      | .error (.numberTooLong digits) =>
        { ending := .failure (.numberTooLong digits), stderr := style.unusualName path }
      | .ok p => runProgram o style path (style.unusualName path) p := by
  rw [runOn]
  -- the decoding is a choice of its own, so it is taken out before it is replaced
  have hDecode := decode_toUTF8 text
  generalize decode text.toUTF8 = source? at hDecode
  subst hDecode
  rfl

/-- What is printed of a program and said about it, with what its analysis found. -/
theorem runProgram_eq {o : Options} (hRun : o.ast = false) (style : Style) (path : Path)
    (before : String) (p : Program) :
    ∃ q a, Analyzer.new.analyze p = .ok (q, a) ∧
      runProgram o style path before p =
        { ending := .exit (if a.errors = [] then 0 else 1)
          stdout := if o.unparse && !o.check then q.print true else ""
          stderr := before ++ (if o.quiet then "" else style.parsed p.decls.length path) ++
            if a.errors = [] then (if o.quiet then "" else style.noErrors path)
            else style.found a.errors path } := by
  obtain ⟨q, a, hAnalyze, -⟩ := analyze_runs .new p
  refine ⟨q, a, hAnalyze, ?_⟩
  rw [runProgram, if_neg (by rw [hRun]; exact Bool.false_ne_true)]
  simp only [hAnalyze, Analyzer.hasErrors, Bool.not_eq_true', List.isEmpty_eq_false_iff, ne_eq]
  -- without errors the line is about that; with errors each of them has a line
  by_cases hErrors : a.errors = []
  · rw [if_neg (not_not_intro hErrors), if_pos hErrors, if_pos hErrors]
  · rw [if_pos hErrors, if_neg hErrors, if_neg hErrors]

/-! ## Files -/

/-- A directory with one file in it. -/
def oneFile (name : String) (bytes : ByteArray) : Path → Id Content :=
  (FileTree.ofFiles [(name, bytes)]).read

end NameResolution.CommandLine
