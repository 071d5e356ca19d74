import Mathlib.Data.List.Basic
import NameResolution.CommandLine.Arguments

/-!
# Switches — command lines without surprises

Words that are switches, in any order and as often as one likes, and the name of one file among
them or behind a `--`: such a command line is accepted, and it asks for the switches that are there.

* `Names` — the command lines with some words and the name of a file.
* `Options.after` — the options after some words.
* `ofArguments_names` — such a command line is accepted.
-/

namespace NameResolution.CommandLine

/-! ## Words -/

/-- The words for the switches that go with a report. -/
def reportWords : List String :=
  ["--check", "--unparse", "--no-color", "-q"]

/-- The words are these four. -/
theorem mem_reportWords {word : String} : word ∈ reportWords ↔
    word = "--check" ∨ word = "--unparse" ∨ word = "--no-color" ∨ word = "-q" := by
  simp [reportWords]

/-- The switch that a word names. -/
def switchOf (word : String) : Switch :=
  (Switch.names.lookup word).getD .quiet

/-- What words for switches are taken for. -/
def kindsOf (words : List String) : List (String × Argument) :=
  words.map fun word => (word, .switch (switchOf word) .nothing)

/-- The options after some words. -/
def Options.after (o : Options) (words : List String) : Options :=
  { o with
    check := o.check || words.contains "--check"
    unparse := o.unparse || words.contains "--unparse"
    noColor := o.noColor || words.contains "--no-color"
    quiet := o.quiet || words.contains "-q" }

theorem Options.after_nil (o : Options) : o.after [] = o := by
  simp [Options.after]

theorem Options.after_append (o : Options) (words more : List String) :
    o.after (words ++ more) = (o.after words).after more := by
  simp [Options.after, Bool.or_assoc]

variable {word : String} {words : List String}

/-- Each of the words is taken for its switch. -/
theorem ofString_word (hWord : word ∈ reportWords) :
    Argument.ofString word = .ok (.switch (switchOf word) .nothing) := by
  obtain rfl | rfl | rfl | rfl := mem_reportWords.mp hWord <;> rfl

/-- It takes effect at once. -/
theorem take_word (hWord : word ∈ reportWords) (s : State) :
    s.take (switchOf word) .nothing = .ok { s with options := s.options.after [word] } := by
  -- nothing is attached to the switch, so it is the only one
  have hTake (switch : Switch) : s.take switch .nothing = s.apply switch := by
    show [switch].foldlM State.apply s = s.apply switch
    rw [List.foldlM_cons]
    exact bind_pure _
  rw [hTake]
  obtain rfl | rfl | rfl | rfl := mem_reportWords.mp hWord <;>
    exact congrArg Except.ok (by simp [Options.after])

/-! ## Command lines -/

/-- An argument that is told apart by itself is told apart in front of others. -/
theorem ofStrings_cons {argument : String} {kind : Argument} {rest : List String}
    {kinds : List (String × Argument)} (hSwitches : argument ≠ "--")
    (hKind : Argument.ofString argument = .ok kind) (hRest : Argument.ofStrings rest = .ok kinds) :
    Argument.ofStrings (argument :: rest) = .ok ((argument, kind) :: kinds) := by
  rw [Argument.ofStrings, beq_eq_false_iff_ne.mpr hSwitches, if_neg Bool.false_ne_true, hKind,
    hRest]
  rfl

/-- The words are taken for their switches, whatever follows them. -/
theorem ofStrings_words (hWords : ∀ word ∈ words, word ∈ reportWords) {rest : List String}
    {kinds : List (String × Argument)} (hRest : Argument.ofStrings rest = .ok kinds) :
    Argument.ofStrings (words ++ rest) = .ok (kindsOf words ++ kinds) := by
  induction words with
  | nil => exact hRest
  | cons word words ih =>
    obtain ⟨hWord, hOthers⟩ := List.forall_mem_cons.mp hWords
    refine ofStrings_cons ?_ (ofString_word hWord) (ih hOthers)
    rintro rfl
    exact absurd hWord (by decide)

/-- The words take effect one after the other. -/
theorem run_words (hWords : ∀ word ∈ words, word ∈ reportWords) (s : State)
    (rest : List (String × Argument)) : s.run (kindsOf words ++ rest) =
      State.run { s with options := s.options.after words } rest := by
  induction words generalizing s with
  | nil => rw [Options.after_nil]; rfl
  | cons word words ih =>
    obtain ⟨hWord, hOthers⟩ := List.forall_mem_cons.mp hWords
    rw [kindsOf, List.map_cons, List.cons_append, State.run, take_word hWord]
    show State.run { s with options := s.options.after [word] } (kindsOf words ++ rest) = _
    rw [ih hOthers, ← Options.after_append, List.singleton_append]

/-- A word that does not start with a dash does not start with one in front of its equals sign
either. -/
theorem splitValue_head {text : List Char} (h : text.head? ≠ some '-') :
    (splitValue text).1.head? ≠ some '-' := by
  rw [splitValue]
  split
  · exact h
  · cases text with
    | nil => nofun
    | cons c text =>
      rw [List.takeWhile_cons]
      split
      · exact h
      · nofun

/-- No switch has a name without a dash. -/
theorem lookup_names {text : String} (h : text.toList.head? ≠ some '-') :
    Switch.names.lookup text = none := by
  have hHyphen : ∀ p ∈ Switch.names, p.1.toList.head? = some '-' := by decide
  rw [List.lookup_eq_none_iff]
  intro p hp
  rw [bne_iff_ne]
  rintro rfl
  exact h (hHyphen p hp)

/-- What does not begin with a hyphen is the name of a file. -/
theorem ofString_file {file : String} (hFile : file.toList.head? ≠ some '-') :
    Argument.ofString file = .ok .plain := by
  have hHead : ∀ rest, file.toList ≠ '-' :: rest := by
    intro rest hText
    rw [hText] at hFile
    exact hFile rfl
  have hName : Switch.names.lookup (String.ofList (splitValue file.toList).1) = none := by
    refine lookup_names ?_
    rw [String.toList_ofList]
    exact splitValue_head hFile
  rw [Argument.ofString]
  simp only [lookup_names hFile, hName]
  -- the other kinds are those of known names and of texts with a hyphen
  split <;> first | rfl | contradiction | exact absurd (by assumption) (hHead _)

/-- The file is taken where it stands, as no `--` stands right behind it. -/
theorem run_file (file : String) (words : List String) (options : Options) :
    State.run { options := options } ((file, .plain) :: (kindsOf words ++ [])) =
      State.run { file? := some file, options := options } (kindsOf words ++ []) := by
  cases words <;> rfl

/-- A command line with some words and the name of a file, which stands among them or, whatever it
begins with, behind a `--`. -/
inductive Names (file : String) : List String → List String → Prop where
  | among (front back : List String) (hFile : file.toList.head? ≠ some '-') :
    Names file (front ++ back) (front ++ file :: back)
  | behind (words : List String) : Names file words (words ++ ["--", file])

/-- **Command lines.** Words for switches of a report and the name of a file are accepted, and the
options are those that the words ask for. -/
theorem ofArguments_names {file : String} {arguments : List String}
    (hWords : ∀ word ∈ words, word ∈ reportWords) (h : Names file words arguments) :
    Options.ofArguments arguments = .ok (Options.after { file := file } words) := by
  cases h with
  | among front back hFile =>
    obtain ⟨hFront, hBack⟩ := List.forall_mem_append.mp hWords
    have hKinds : Argument.ofStrings (back ++ []) = .ok (kindsOf back ++ []) :=
      ofStrings_words hBack rfl
    rw [List.append_nil] at hKinds
    have hEnd : Argument.ofStrings (file :: back) =
        .ok ((file, .plain) :: (kindsOf back ++ [])) := by
      refine ofStrings_cons ?_ (ofString_file hFile) hKinds
      rintro rfl
      exact hFile rfl
    rw [Options.ofArguments, ofStrings_words hFront hEnd]
    -- the words in front, the file, and the words behind it take effect in turn
    show (State.run {} _ >>= _) = _
    rw [run_words hFront, run_file, run_words hBack, State.run, ← Options.after_append]
    rfl
  | behind =>
    have hEnd : Argument.ofStrings ["--", file] =
        .ok [("--", .endOfSwitches), (file, .plain)] := rfl
    rw [Options.ofArguments, ofStrings_words hWords hEnd]
    -- the `--` belongs to the file
    show (State.run {} _ >>= _) = _
    rw [run_words hWords]
    rfl

end NameResolution.CommandLine
