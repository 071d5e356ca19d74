/-!
# Paths — the name of a file, taken apart at its slashes

Empty parts and parts that are a single point say nothing and are dropped; two points stay, since
what they mean depends on the directory before them. A path of no parts is the directory `.`
itself.

* `Path.text` — the path as it is shown.
* `Path.suffix` — the ending of the last part, from its last point on.
-/

namespace NameResolution.CommandLine

/-- A path by its parts. -/
structure Path where
  /-- The slashes that an absolute path begins with: one or two of them. -/
  root : String
  parts : List String
deriving DecidableEq, Repr

namespace Path

/-- The pieces of a text between its slashes. -/
def pieces : List Char → List (List Char)
  | [] => [[]]
  | '/' :: rest => [] :: pieces rest
  | c :: rest =>
    match pieces rest with
    | [] => [[c]]
    | piece :: others => (c :: piece) :: others

/-- The root of a path. Two slashes at its beginning count, more of them are one. -/
def rootOf : List Char → String
  | '/' :: '/' :: '/' :: _ => "/"
  | '/' :: '/' :: _ => "//"
  | '/' :: _ => "/"
  | _ => ""

/-- The path that a text writes. -/
def ofString (text : String) : Path :=
  let parts := (pieces text.toList).filter fun piece => piece != [] && piece != ['.']
  ⟨rootOf text.toList, parts.map String.ofList⟩

/-- The path as it is shown. -/
def text (p : Path) : String :=
  if p.root.isEmpty && p.parts.isEmpty then "." else p.root ++ "/".intercalate p.parts

/-- Whether there is a NUL in the path, which no file has in its name. -/
def hasNul (p : Path) : Bool := p.text.toList.contains '\x00'

/-- The part of a name from its last point on; a point that begins or ends the name does not
count. -/
def suffixOf (name : List Char) : List Char :=
  let ending := (name.reverse.takeWhile (· != '.')).reverse
  if !name.contains '.' || ending.isEmpty || ending.length + 1 = name.length then []
  else '.' :: ending

/-- The suffix of the last part. -/
def suffix (p : Path) : String :=
  String.ofList (suffixOf ((p.parts.getLast?.getD "").toList))

end Path

end NameResolution.CommandLine
