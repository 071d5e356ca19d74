import NameResolution.Text.Decimal
import NameResolution.Text.Escape

/-!
# Structured values — JSON texts

A value is printed over several lines, each level of nesting two spaces further in; empty lists and
empty objects stay on one line. All characters but the printable ones of ASCII are escaped, those
beyond the first plane as two escapes of surrogates.
-/

namespace NameResolution.Dump

/-- A value of JSON; all numbers are whole. -/
inductive Value where
  | null
  | bool (b : Bool)
  | int (n : Int)
  | text (s : String)
  | list (items : List Value)
  /-- Values under keys, in the order they are printed in. -/
  | object (entries : List (String × Value))

/-! ## Strings -/

/-- An escape of a code unit of 16 bits. -/
def escapeUnit (n : Nat) : List Char :=
  '\\' :: 'u' :: Text.hexDigits 4 n

/-- A character inside a string. -/
def escapeChar (c : Char) : List Char :=
  if c == '"' || c == '\\' then ['\\', c]
  else if c == '\n' then ['\\', 'n']
  else if c == '\r' then ['\\', 'r']
  else if c == '\t' then ['\\', 't']
  else if c == '\x08' then ['\\', 'b']
  else if c == '\x0c' then ['\\', 'f']
  -- all that is not printable stands as one escape or, beyond the first plane, as two
  else if ' ' ≤ c && c ≤ '~' then [c]
  else if c.toNat < 0x10000 then escapeUnit c.toNat
  else
    let n := c.toNat - 0x10000
    escapeUnit (0xd800 + n / 0x400) ++ escapeUnit (0xdc00 + n % 0x400)

/-- A string between its quotes. -/
def printText (s : String) : String :=
  String.ofList ('"' :: s.toList.flatMap escapeChar ++ ['"'])

/-! ## Values -/

/-- The items between brackets, one a line at `depth` levels of nesting. -/
def printLines (opening closing : String) (depth : Nat) (items : List String) : String :=
  let line (depth : Nat) := "\n" ++ String.ofList (List.replicate (2 * depth) ' ')
  if items.isEmpty then opening ++ closing
  else opening ++ ",".intercalate (items.map (line (depth + 1) ++ ·)) ++ line depth ++ closing

mutual

/-- The text of a value inside `depth` levels of nesting. -/
def Value.print (depth : Nat) : Value → String
  | .null => "null"
  | .bool true => "true"
  | .bool false => "false"
  | .int n => Text.decimalText n
  | .text s => printText s
  | .list items => printLines "[" "]" depth (Value.printItems (depth + 1) items)
  | .object entries => printLines "\x7b" "\x7d" depth (Value.printEntries (depth + 1) entries)

def Value.printItems (depth : Nat) : List Value → List String
  | [] => []
  | v :: vs => v.print depth :: Value.printItems depth vs

def Value.printEntries (depth : Nat) : List (String × Value) → List String
  | [] => []
  | (key, v) :: entries =>
    (printText key ++ ": " ++ v.print depth) :: Value.printEntries depth entries

end

end NameResolution.Dump
