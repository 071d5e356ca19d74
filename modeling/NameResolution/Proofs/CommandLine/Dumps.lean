import NameResolution.Proofs.CommandLine.Reading
import NameResolution.Proofs.Dump.Trees
import NameResolution.Proofs.Dump.Values
import NameResolution.Proofs.Grammar.Soundness

/-!
# Printed trees — which programs can be told apart

A run that is asked for a tree prints the dump of its program. Dumps of different outlines are
different values, and different values are printed as different texts; programs with one outline
have one dump. So what is printed tells the programs of two runs apart exactly if their outlines
differ.

* `DumpsTree` — what is needed for a tree to be printed.
* `dumps_tell_outlines` — what two runs print compared.
-/

namespace NameResolution.CommandLine

variable {m : Type → Type} [Monad m] {read read' : Path → m Content}
  {arguments arguments' : List String} {p p' : Program}

/-! ## Two runs -/

/-- The arguments ask for the tree of a file with the program `p` in it. -/
def DumpsTree (read : Path → m Content) (arguments : List String) (p : Program) : Prop :=
  ∃ (o : Options) (text : String), Options.ofArguments arguments = .ok o ∧ o.ast = true ∧
    read (Path.ofString o.file) = pure (.bytes text.toUTF8) ∧
    Grammar.parse (sourceOf text) = .ok p

/-- The run prints the dump of the program, and a line feed. -/
theorem DumpsTree.run_eq [LawfulMonad m] (h : DumpsTree read arguments p)
    (outIsTty errIsTty : Bool) :
    ∃ said, run read outIsTty errIsTty arguments =
      pure { ending := .exit 0, stdout := p.dump.print 0 ++ "\n", stderr := said } := by
  obtain ⟨o, text, hAccepted, hTree, hRead, hParse⟩ := h
  have hRun := run_of_accepted hAccepted hRead outIsTty errIsTty
  rw [runOn_toUTF8, hParse] at hRun
  simp only [runProgram, if_pos hTree] at hRun
  exact ⟨_, hRun⟩

/-- Two dumps are printed alike if and only if they are dumps of one outline. -/
theorem print_dump_eq_iff :
    p.dump.print 0 ++ "\n" = p'.dump.print 0 ++ "\n" ↔ p.outline = p'.outline := by
  rw [← Program.dump_eq_iff]
  constructor
  · intro hText
    exact Dump.Value.print_inj (String.append_left_inj _ |>.mp hText)
  · intro hDump
    rw [hDump]

/-- **Printed trees.** Let two runs be asked for the trees of programs. Both end with status 0, and
they print the same text exactly if the programs have the same outline: they differ in nothing but
which of the basic types is meant, which of the truth values, which kind of statement with one
expression, or whether a condition is tested again. So what is printed alike has the same names and
literals in the same places. -/
theorem dumps_tell_outlines [LawfulMonad m] (hFirst : DumpsTree read arguments p)
    (hSecond : DumpsTree read' arguments' p') (outIsTty errIsTty outIsTty' errIsTty' : Bool) :
    ∃ r r', run read outIsTty errIsTty arguments = pure r ∧
      run read' outIsTty' errIsTty' arguments' = pure r' ∧
      r.ending = .exit 0 ∧ r'.ending = .exit 0 ∧
      (r.stdout = r'.stdout ↔ p.outline = p'.outline) ∧
      (r.stdout = r'.stdout → p.leaves = p'.leaves) := by
  obtain ⟨said, hRun⟩ := hFirst.run_eq outIsTty errIsTty
  obtain ⟨said', hRun'⟩ := hSecond.run_eq outIsTty' errIsTty'
  refine ⟨_, _, hRun, hRun', rfl, rfl, print_dump_eq_iff, fun hText => ?_⟩
  rw [← p.leaves_outline, print_dump_eq_iff.mp hText, p'.leaves_outline]

/-! ## Programs told apart, and programs that are not -/

/-- The tree of any program can be asked for. -/
theorem dumpsTree_oneFile {text : String} (hParse : Grammar.parse (sourceOf text) = .ok p) :
    DumpsTree (oneFile "p.bach" text.toUTF8) ["--ast", "p.bach"] p := by
  have hAccepted : Options.ofArguments ["--ast", "p.bach"] =
      .ok { file := "p.bach", ast := true } := by
    decide +kernel
  exact ⟨_, text, hAccepted, rfl, rfl, hParse⟩

/-- A text, and the same text with its last name further right. -/
def copied : String := "void f[][x = y.]"

def copiedApart : String := "void f[][x =  y.]"

/-- Programs that differ in a position only are told apart. -/
theorem moved_name_dumped :
    ∃ p p', DumpsTree (oneFile "p.bach" copied.toUTF8) ["--ast", "p.bach"] p ∧
      DumpsTree (oneFile "p.bach" copiedApart.toUTF8) ["--ast", "p.bach"] p' ∧
      p.print false = p'.print false ∧
      ∃ r r', run (oneFile "p.bach" copied.toUTF8) false false ["--ast", "p.bach"] = pure r ∧
        run (oneFile "p.bach" copiedApart.toUTF8) false false ["--ast", "p.bach"] = pure r' ∧
        r.stdout ≠ r'.stdout := by
  have hSeen : (Grammar.parse (sourceOf copied)).toOption.map (fun p =>
      (p.print false, p.leaves.filterMap Mark.pos?)) =
        some ("void f[] [\n    x = y.\n]\n\n", [⟨1, 6⟩, ⟨1, 10⟩, ⟨1, 14⟩]) := by
    decide +kernel
  have hSeen' : (Grammar.parse (sourceOf copiedApart)).toOption.map (fun p =>
      (p.print false, p.leaves.filterMap Mark.pos?)) =
        some ("void f[] [\n    x = y.\n]\n\n", [⟨1, 6⟩, ⟨1, 10⟩, ⟨1, 15⟩]) := by
    decide +kernel
  obtain ⟨p, hParse, hShown⟩ := Grammar.exists_of_seen hSeen
  obtain ⟨p', hParse', hShown'⟩ := Grammar.exists_of_seen hSeen'
  obtain ⟨hPrint, hPlaces⟩ := Prod.mk.inj hShown
  obtain ⟨hPrint', hPlaces'⟩ := Prod.mk.inj hShown'
  have hFirst := dumpsTree_oneFile hParse
  have hSecond := dumpsTree_oneFile hParse'
  obtain ⟨r, r', hRun, hRun', -, -, -, hLeaves⟩ :=
    dumps_tell_outlines hFirst hSecond false false false false
  -- the same text would mean the same leaves, and one of the names has moved
  refine ⟨p, p', hFirst, hSecond, hPrint.trans hPrint'.symm, r, r', hRun, hRun', fun hText => ?_⟩
  rw [hLeaves hText, hPlaces'] at hPlaces
  exact absurd hPlaces (by decide)

/-- Programs that differ in a basic type only are printed alike. -/
theorem types_dumped_alike :
    ∃ p p', DumpsTree (oneFile "p.bach" "boolean x.".toUTF8) ["--ast", "p.bach"] p ∧
      DumpsTree (oneFile "p.bach" "integer x.".toUTF8) ["--ast", "p.bach"] p' ∧ p ≠ p' ∧
      ∃ r, run (oneFile "p.bach" "boolean x.".toUTF8) false false ["--ast", "p.bach"] = pure r ∧
        run (oneFile "p.bach" "integer x.".toUTF8) false false ["--ast", "p.bach"] = pure r := by
  have hSeen : (Grammar.parse (sourceOf "boolean x.")).toOption.map (Program.print false) =
      some "boolean x.\n" := by
    decide +kernel
  have hSeen' : (Grammar.parse (sourceOf "integer x.")).toOption.map (Program.print false) =
      some "integer x.\n" := by
    decide +kernel
  obtain ⟨p, hParse, hPrint⟩ := Grammar.exists_of_seen hSeen
  obtain ⟨p', hParse', hPrint'⟩ := Grammar.exists_of_seen hSeen'
  have hSaid : Id.run (run (oneFile "p.bach" "boolean x.".toUTF8) false false ["--ast", "p.bach"]) =
      Id.run (run (oneFile "p.bach" "integer x.".toUTF8) false false ["--ast", "p.bach"]) := by
    decide +kernel
  -- both runs print the same, yet the programs print their declarations differently
  refine ⟨p, p', dumpsTree_oneFile hParse, dumpsTree_oneFile hParse', ?_, _, hSaid, rfl⟩
  rintro rfl
  rw [hPrint] at hPrint'
  exact absurd hPrint' (by decide)

end NameResolution.CommandLine
