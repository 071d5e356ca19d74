/-!
# Switches — the options of the command line

No switch takes a value. A switch goes by a long name, by a letter, or by both.
-/

namespace NameResolution.CommandLine

/-- What can be asked for. -/
inductive Switch where
  | help
  | version
  | check
  | unparse
  | ast
  | noColor
  | quiet
deriving DecidableEq, Repr

namespace Switch

/-- Every name of a switch, in the order of the help text. -/
def names : List (String × Switch) :=
  [("-h", help), ("--help", help), ("-v", version), ("--version", version), ("--check", check),
    ("--unparse", unparse), ("--ast", ast), ("--no-color", noColor), ("--quiet", quiet),
    ("-q", quiet)]

/-- The names of a switch, as a message about it gives them. -/
def label (s : Switch) : String :=
  "/".intercalate ((names.filter (·.2 = s)).map (·.1))

end Switch

end NameResolution.CommandLine
