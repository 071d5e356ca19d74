import NameResolution.Analysis.Analyzer
import NameResolution.CommandLine.FileTree
import NameResolution.CommandLine.Message
import NameResolution.Dump.Tree
import NameResolution.Grammar.Program
import NameResolution.Text.Newline
import NameResolution.Tree.Printer

/-!
# Runs of the program — from the command line to what is printed

A run reads one file, resolves its names and says what it found. It ends with an exit status: 0 if
all is well, 1 if the file cannot be used or has errors, 2 if the command line is wrong. What the
program makes no message of ends it as a failure.

* `runOn` — a run over what a file holds.
* `run` — a whole run, given how files are read.
-/

namespace NameResolution.CommandLine

/-! ## Endings -/

/-- What ends a run without a message. -/
inductive Failure where
  /-- The file is a directory. -/
  | directory
  /-- The path goes on behind a file. -/
  | notDirectory
  /-- The path, or a name in it, is longer than any file's. -/
  | nameTooLong
  /-- There is a NUL in the path. -/
  | nulInName
  /-- The bytes of the file are no text. -/
  | undecodable
  /-- A number in the program has that many digits, too many. -/
  | numberTooLong (digits : Nat)
  /-- The scopes of the analysis do not match up. -/
  | scope (error : ScopeError)
deriving DecidableEq, Repr

/-- What is said about the failure. -/
def Failure.message : Failure → String
  | directory => "the file is a directory"
  | notDirectory => "the path goes on behind a file"
  | nameTooLong => "the file name is too long"
  | nulInName => "embedded null byte"
  | undecodable => "the file is not written in UTF-8"
  | numberTooLong digits => (Grammar.ParseError.numberTooLong digits).message
  | scope error => error.message

/-- How a run ends. -/
inductive Ending where
  | exit (status : Nat)
  | failure (failure : Failure)
deriving DecidableEq, Repr

/-- What a run prints, and how it ends. -/
structure Result where
  ending : Ending
  stdout : String := ""
  stderr : String := ""
deriving DecidableEq, Repr

/-- What a run says that reads no file. -/
def Stop.result : Stop → Result
  | help => { ending := .exit 0, stdout := helpText }
  | version => { ending := .exit 0, stdout := versionText }
  | usage e => { ending := .exit 2, stderr := e.text }

/-! ## Runs -/

/-- The source text that the bytes of a file are. -/
def decode (bytes : ByteArray) : Option String :=
  (String.fromUTF8? bytes).map fun text =>
    String.ofList (Text.normalizeNewlines text.toList)

/-- A run over a program; `before` has been said already. -/
def runProgram (o : Options) (style : Style) (path : Path) (before : String) (p : Program) :
    Result :=
  -- the tree is printed in place of the analysis, so nothing is said about the program
  if o.ast then
    { ending := .exit 0, stdout := p.dump.print 0 ++ "\n", stderr := before }
  else
    let said := before ++ (if o.quiet then "" else style.parsed p.decls.length path)
    match Analyzer.new.analyze p with
    | .error e => { ending := .failure (.scope e), stderr := said }
    | .ok (resolved, a) =>
      -- checking wins over printing
      let printed := if o.unparse && !o.check then resolved.print true else ""
      if a.hasErrors then
        { ending := .exit 1, stdout := printed, stderr := said ++ style.found a.errors path }
      else
        { ending := .exit 0, stdout := printed
          stderr := said ++ (if o.quiet then "" else style.noErrors path) }

/-- A run over what reading the file came to. A text that is no program is reported with one line,
which says so and names the file; where and why the reading failed is not said here. -/
def runOn (o : Options) (style : Style) (path : Path) (content : Content) : Result :=
  let before := style.unusualName path
  match content with
  | .missing => { ending := .exit 1, stderr := before ++ style.notFound path }
  | .denied => { ending := .exit 1, stderr := before ++ style.notPermitted path }
  | .directory => { ending := .failure .directory, stderr := before }
  | .notDirectory => { ending := .failure .notDirectory, stderr := before }
  | .nameTooLong => { ending := .failure .nameTooLong, stderr := before }
  | .nulInName => { ending := .failure .nulInName, stderr := before }
  | .bytes bytes =>
    match decode bytes with
    | none => { ending := .failure .undecodable, stderr := before }
    | some source =>
      match Grammar.parse source with
      | .error .invalid => { ending := .exit 1, stderr := before ++ style.notParsed path }
      -- a number that is too long is no error of the grammar, and is not caught
      | .error (.numberTooLong digits) =>
        { ending := .failure (.numberTooLong digits), stderr := before }
      | .ok p => runProgram o style path before p

/-- A run with the given arguments. Colours are used if both channels are terminals. -/
def run {m : Type → Type} [Monad m] (read : Path → m Content) (outIsTty errIsTty : Bool)
    (arguments : List String) : m Result :=
  match Options.ofArguments arguments with
  | .error stop => pure stop.result
  | .ok o => do
    let path := Path.ofString o.file
    let content ← read path
    pure (runOn o ⟨outIsTty && errIsTty && !o.noColor⟩ path content)

end NameResolution.CommandLine
