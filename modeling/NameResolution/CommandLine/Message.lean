import NameResolution.CommandLine.Arguments
import NameResolution.CommandLine.Path
import NameResolution.Diagnostic
import NameResolution.Text.Decimal

/-!
# Messages — what the program says

Everything about the file goes to the error channel, one line each, with a word in front that a
terminal shows in colour.

* `usage`, `helpText`, `versionText` — what is said when no file is read.
* `found`, `parsed`, `noErrors` — what is said about a program.
-/

namespace NameResolution.CommandLine

/-! ## Without a file -/

/-- How the program is called. -/
def usage : String :=
  "usage: bach [-h] [-v] [--check] [--unparse] [--ast] [--no-color] [--quiet]\n            FILE\n"

/-- What is said when help is asked for. -/
def helpText : String :=
  usage ++ "\n"
    ++ "Resolve every identifier in a bach program and report name errors.\n\n"
    ++ "positional arguments:\n"
    ++ "  FILE           bach source file (.bach)\n\n"
    ++ "options:\n"
    ++ "  -h, --help     show this help message and exit\n"
    ++ "  -v, --version  show program's version number and exit\n"
    ++ "  --check        only report errors\n"
    ++ "  --unparse      print the program with resolved symbols\n"
    ++ "  --ast          print the parsed AST and exit\n"
    ++ "  --no-color     disable colored output\n"
    ++ "  --quiet, -q    suppress info messages\n"

/-- What is said when the version is asked for. -/
def versionText : String := "bach 0.4.0\n"

/-- What is said about a command line that cannot be followed. -/
def UsageError.text (e : UsageError) : String :=
  usage ++ "bach: error: " ++ e.message ++ "\n"

/-! ## Colours -/

/-- The colours in use. -/
inductive Colour where
  | red
  | green
  | yellow
  | cyan
deriving DecidableEq, Repr

/-- The number that a terminal knows a colour by. -/
def Colour.code : Colour → String
  | red => "91"
  | green => "92"
  | yellow => "93"
  | cyan => "96"

/-- The control sequence that sets a rendition. -/
def rendition (code : String) : String := "\x1b[" ++ code ++ "m"

/-- How words are set off: in bold and coloured, coloured, or not at all. -/
structure Style where
  coloured : Bool
deriving DecidableEq, Repr

namespace Style

/-- A word in a colour. -/
def plain (style : Style) (colour : Colour) (word : String) : String :=
  if style.coloured then rendition colour.code ++ word ++ rendition "0" else word

/-- A word in a colour and in bold. -/
def bold (style : Style) (colour : Colour) (word : String) : String :=
  if style.coloured then rendition colour.code ++ rendition "1" ++ word ++ rendition "0" else word

/-! ## Lines -/

/-- A line that reports an error. -/
def error (style : Style) (message : String) : String :=
  style.bold .red "error:" ++ " " ++ message ++ "\n"

/-- A line that warns. -/
def warning (style : Style) (message : String) : String :=
  style.bold .yellow "warning:" ++ " " ++ message ++ "\n"

/-- A line that informs. -/
def info (style : Style) (message : String) : String :=
  style.bold .cyan "info:" ++ " " ++ message ++ "\n"

/-- A line that reports success. -/
def success (style : Style) (message : String) : String :=
  style.bold .green "✓" ++ " " ++ message ++ "\n"

/-! ## About a file -/

/-- The line about a name that does not end as the names of sources do. -/
def unusualName (style : Style) (path : Path) : String :=
  if path.suffix = ".bach" then ""
  else style.warning ("file does not have .bach extension: " ++ path.text)

/-- There is no such file. -/
def notFound (style : Style) (path : Path) : String :=
  style.error ("file not found: " ++ path.text)

/-- The file may not be read. -/
def notPermitted (style : Style) (path : Path) : String :=
  style.error ("permission denied: " ++ path.text)

/-- The text is no program. -/
def notParsed (style : Style) (path : Path) : String :=
  style.error ("parse error in " ++ path.text)

/-- The text has been read, as that many declarations. -/
def parsed (style : Style) (count : Nat) (path : Path) : String :=
  style.info ("parsed " ++ Text.decimalText count ++ " declaration(s) from " ++ path.text)

/-- The analysis has found nothing. -/
def noErrors (style : Style) (path : Path) : String :=
  style.success ("no errors in " ++ path.text)

/-- The line about one error. -/
def diagnostic (style : Style) (d : Diagnostic) : String :=
  "  " ++ style.plain .red "→" ++ " " ++ d.text ++ "\n"

/-- How many errors were found, and each of them. -/
def found (style : Style) (ds : List Diagnostic) (path : Path) : String :=
  style.error ("found " ++ Text.decimalText ds.length ++ " error(s) in " ++ path.text)
    ++ String.join (ds.map style.diagnostic)

end Style

end NameResolution.CommandLine
