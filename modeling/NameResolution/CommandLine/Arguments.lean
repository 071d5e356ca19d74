import NameResolution.CommandLine.Switch
import NameResolution.Text.Decimal
import NameResolution.Text.Quoted

/-!
# Arguments — which file to read, and how

An argument is a switch if it starts with a hyphen and does not look like a number, up to the first
`--`. A long name may be cut short as long as it fits one switch only. What stands behind a letter,
with or without `=` between them, is more letters; what follows a long name and `=` is a value,
which no switch takes. All arguments are sorted into switches and others before any of them takes
effect, and then they take effect from the left.

* `Argument.ofString` — what kind of argument a word is.
* `Options.ofArguments` — the options, or why there are none.
-/

namespace NameResolution.CommandLine

/-! ## What is asked for -/

/-- The file to read, and the switches that were given. -/
structure Options where
  file : String
  check : Bool := false
  unparse : Bool := false
  ast : Bool := false
  noColor : Bool := false
  quiet : Bool := false
deriving DecidableEq, Repr

/-- A command line that cannot be followed. -/
inductive UsageError where
  /-- A name fits several switches. -/
  | ambiguous (argument : String) (fitting : List String)
  /-- A switch is given a value. -/
  | unwantedValue (switch : Switch) (value : String)
  /-- No file is named. -/
  | noFile
  /-- Some arguments are neither switches nor the file. -/
  | unrecognized (arguments : List String)
deriving DecidableEq, Repr

/-- What is said about the error. -/
def UsageError.message : UsageError → String
  | ambiguous argument fitting =>
    "ambiguous option: " ++ argument ++ " could match " ++ ", ".intercalate fitting
  | unwantedValue switch value =>
    "argument " ++ switch.label ++ ": ignored explicit argument " ++ Text.quoted value
  | noFile => "the following arguments are required: FILE"
  | unrecognized arguments => "unrecognized arguments: " ++ " ".intercalate arguments

/-- Why no file is read. -/
inductive Stop where
  | help
  | version
  | usage (error : UsageError)
deriving DecidableEq, Repr

/-! ## Kinds of arguments -/

/-- What is attached to the name of a switch. -/
inductive Attached where
  /-- Nothing. -/
  | nothing
  /-- A value: what follows a long name and `=`, or nothing that follows a letter and `=`. -/
  | value (text : String)
  /-- More letters: what follows a letter, or a letter and `=`. -/
  | letters (text : String)
deriving DecidableEq, Repr

/-- What an argument is taken for. -/
inductive Argument where
  /-- No switch: a file. -/
  | plain
  /-- The `--` that ends the switches. -/
  | endOfSwitches
  | switch (switch : Switch) (attached : Attached)
  /-- It looks like a switch but is none. -/
  | unknown
deriving DecidableEq, Repr

/-- The text before the first `=`, and the text after it. -/
def splitValue (text : List Char) : List Char × Option (List Char) :=
  match text.dropWhile (· != '=') with
  | [] => (text, none)
  | _ :: value => (text.takeWhile (· != '='), some value)

/-- Digits, or digits after a point; they may stand in front of a final line feed. -/
def isUnsigned (text : List Char) : Bool :=
  let text := if text.getLast? == some '\n' then text.dropLast else text
  let isRun (cs : List Char) := !cs.isEmpty && cs.all Text.isDecimalDigit
  isRun text || match text.dropWhile Text.isDecimalDigit with
    | '.' :: fraction => isRun fraction
    | _ => false

/-- Whether a switch is meant by an argument that fits none. -/
def looksLikeSwitch (text : List Char) : Bool :=
  !isUnsigned text.tail && !text.contains ' '

/-- What the text behind `=` is to a long name. -/
def attachedToName : Option (List Char) → Attached
  | none => .nothing
  | some text => .value (String.ofList text)

/-- What the text behind `=` is to a letter. -/
def attachedToLetter : Option (List Char) → Attached
  | none => .nothing
  | some [] => .value ""
  | some letters => .letters (String.ofList letters)

/-- The kind of an argument in front of any `--`. -/
def Argument.ofString (argument : String) : Except UsageError Argument :=
  let (name, value?) := splitValue argument.toList
  match Switch.names.lookup argument, Switch.names.lookup (String.ofList name), argument.toList with
  -- the whole argument is a name, or what stands in front of the equals sign is
  | some named, _, _ => .ok (.switch named .nothing)
  | none, some named, '-' :: '-' :: _ => .ok (.switch named (attachedToName value?))
  | none, some named, _ => .ok (.switch named (attachedToLetter value?))
  | none, none, '-' :: '-' :: _ =>
    -- a beginning of a long name stands for it, if it is that of one name only
    match Switch.names.filter fun (full, _) => name.isPrefixOf full.toList with
    | [] => .ok (if looksLikeSwitch argument.toList then .unknown else .plain)
    | [(_, named)] => .ok (.switch named (attachedToName value?))
    | fitting => .error (.ambiguous argument (fitting.map (·.1)))
  | none, none, '-' :: letter :: more =>
    match Switch.names.lookup (String.ofList ['-', letter]) with
    | some named => .ok (.switch named (.letters (String.ofList more)))
    | none => .ok (if looksLikeSwitch argument.toList then .unknown else .plain)
  | none, none, _ => .ok .plain

/-- The kinds of all arguments, in order; behind `--` all are plain. -/
def Argument.ofStrings : List String → Except UsageError (List (String × Argument))
  | [] => .ok []
  | argument :: rest =>
    -- behind two dashes everything is a file, whatever it looks like
    if argument == "--" then
      .ok ((argument, .endOfSwitches) :: rest.map fun file => (file, .plain))
    else do
      let kind ← Argument.ofString argument
      let kinds ← Argument.ofStrings rest
      pure ((argument, kind) :: kinds)

/-! ## Switches taking effect -/

/-- The switches that a letter with more letters behind it stands for. Letters that do not begin
with a switch are refused as a value of the switch before them. -/
def expandLetters (switch : Switch) : List Char → Except UsageError (List Switch)
  | [] => .ok [switch]
  | letter :: more =>
    match Switch.names.lookup (String.ofList ['-', letter]) with
    | none => .error (.unwantedValue switch (String.ofList (letter :: more)))
    | some next => (expandLetters next more).map (switch :: ·)

/-- The switches that an argument stands for. -/
def expand (switch : Switch) : Attached → Except UsageError (List Switch)
  | .nothing => .ok [switch]
  | .value text => .error (.unwantedValue switch text)
  | .letters text => expandLetters switch text.toList

/-- What the arguments so far have come to. -/
structure State where
  file? : Option String := none
  options : Options := { file := "" }
  /-- The arguments without use. -/
  extras : List String := []
deriving DecidableEq, Repr

/-- The state after a switch. -/
def State.apply (s : State) : Switch → Except Stop State
  | .help => .error .help
  | .version => .error .version
  | .check => .ok { s with options := { s.options with check := true } }
  | .unparse => .ok { s with options := { s.options with unparse := true } }
  | .ast => .ok { s with options := { s.options with ast := true } }
  | .noColor => .ok { s with options := { s.options with noColor := true } }
  | .quiet => .ok { s with options := { s.options with quiet := true } }

/-- The state with one more argument without use. -/
def State.leave (s : State) (argument : String) : State :=
  { s with extras := s.extras ++ [argument] }

/-- The state after an argument that is a switch; if one of its letters is refused, none of them
takes effect. -/
def State.take (s : State) (switch : Switch) (attached : Attached) : Except Stop State := do
  let switches ← (expand switch attached).mapError .usage
  switches.foldlM State.apply s

/-- Takes the arguments from the left. The first plain one is the file, and a `--` right before or
right after it belongs to it. -/
def State.run (s : State) : List (String × Argument) → Except Stop State
  | [] => .ok s
  | (_, .switch switch attached) :: rest => do (← s.take switch attached).run rest
  | (argument, .unknown) :: rest => (s.leave argument).run rest
  | (argument, .plain) :: rest =>
    match s.file?, rest with
    -- two dashes behind the file belong to it, and say nothing more
    | none, (_, .endOfSwitches) :: rest => { s with file? := some argument }.run rest
    | none, rest => { s with file? := some argument }.run rest
    | some _, rest => (s.leave argument).run rest
  | (argument, .endOfSwitches) :: rest =>
    match s.file?, rest with
    | none, (file, _) :: rest => { s with file? := some file }.run rest
    | _, rest => (s.leave argument).run rest

/-- The options that the arguments ask for. -/
def Options.ofArguments (arguments : List String) : Except Stop Options := do
  let kinds ← (Argument.ofStrings arguments).mapError .usage
  let s ← State.run {} kinds
  match s.file?, s.extras with
  | none, _ => .error (.usage .noFile)
  | some file, [] => .ok { s.options with file := file }
  | some _, extras => .error (.usage (.unrecognized extras))

end NameResolution.CommandLine
