/-!
# Positions in a text — lines and columns of code points

A text is cut into lines after each of its line breaks; a carriage return and the line feed after
it are one break. Lines and columns count from 1, columns in code points from the start of the
line.

* `positionAt` — the position of an offset, found by reading everything before it.
* `locate` — the same for an offset given by what is left to read there.
* `positionOf` — the position of an offset that may lie outside the text.
-/

namespace NameResolution

/-- A line and a column, both counted from 1 where they point into a text. -/
structure Position where
  line : Int
  col : Int
deriving DecidableEq, Repr, Inhabited

namespace Text

/-! ## Line breaks -/

/-- The characters that end a line. -/
def isLineBreak (c : Char) : Bool :=
  ('\n' ≤ c && c ≤ '\r') || ('\x1c' ≤ c && c ≤ '\x1e') || c = '\x85' || c = '\u2028' || c = '\u2029'

/-- Whether a line ends after `c` when `rest` follows: the carriage return of a pair with a line
feed leaves that to the line feed. -/
def endsLine (c : Char) (rest : List Char) : Bool :=
  isLineBreak c && !(c == '\r' && rest.head? == some '\n')

/-! ## Offsets -/

/-- The position after `c`, read at `p` in front of `rest`. -/
def advance (p : Position) (c : Char) (rest : List Char) : Position :=
  if endsLine c rest then ⟨p.line + 1, 1⟩ else ⟨p.line, p.col + 1⟩

/-- The position `n` characters into `text`, which starts at `p`; past the end, that of the end. -/
def positionFrom (p : Position) : List Char → Nat → Position
  | [], _ => p
  | _ :: _, 0 => p
  | c :: rest, n + 1 => positionFrom (advance p c rest) rest n

/-- The position of the offset `n` of a text. -/
def positionAt (text : List Char) (n : Nat) : Position :=
  positionFrom ⟨1, 1⟩ text n

/-- The position in `text` at which `rest`, an ending of it, begins. -/
def locate (text rest : List Char) : Position :=
  positionAt text (text.length - rest.length)

/-! ## Offsets from outside -/

/-- Why an offset has no position. -/
inductive PositionError where
  /-- The text is empty, or the offset counts back beyond its start. -/
  | outOfRange
deriving DecidableEq, Repr

/-- What is said about the error. -/
def PositionError.message : PositionError → String
  | outOfRange => "list index out of range"

/-- The position of an offset. An offset past the last character stands for that character. An
offset below zero counts back from behind the end, which is a place of its own in column 1 of the
last line; it has the line of the place it leads to, and a column as much less as it is itself. -/
def positionOf (text : List Char) (offset : Int) : Except PositionError Position :=
  let last := text.length - 1
  let places : Int := text.length + 1
  if text.isEmpty || offset < -places then .error .outOfRange
  else if 0 ≤ offset then .ok (positionAt text (min offset.toNat last))
  else
    let place := (offset + places).toNat
    let p := if place ≤ last then positionAt text place else ⟨(positionAt text last).line, 1⟩
    .ok ⟨p.line, p.col - places⟩

/-- The position of the first character of the last `length` characters before the offset `stop`,
looked for no earlier than `start`. -/
def positionBefore (text : List Char) (start stop length : Int) : Except PositionError Position :=
  positionOf text (max (stop - length) start)

end Text

end NameResolution
