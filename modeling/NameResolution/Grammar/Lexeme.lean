import NameResolution.Grammar.Parser
import NameResolution.Text.Alphanumeric
import NameResolution.Text.Blank
import NameResolution.Text.Decimal

/-!
# Lexemes — symbols, keywords, names and literals

White space and comments are skipped in front of every lexeme, never inside one. A comment starts
with `#` and goes on to the next line feed.

* `symbol`, `operator` — punctuation, taken without a look at what follows.
* `keyword` — a keyword that no letter or digit follows. An underscore may follow it.
* `name` — a word that is not a keyword.
* `number`, `string` — literals.
-/

namespace NameResolution.Grammar

/-! ## Trivia -/

/-- The text after the white space and the comments at its start; with `inComment`, after the rest
of a comment first. -/
def skipTriviaFrom (inComment : Bool) : List Char → List Char
  | [] => []
  | c :: cs =>
    if inComment then skipTriviaFrom (c != '\n') cs
    else if c == '#' then skipTriviaFrom true cs
    else if Text.isBlank c then skipTriviaFrom false cs
    else c :: cs

/-- The text after the white space and the comments at its start. -/
def skipTrivia (cs : List Char) : List Char :=
  skipTriviaFrom false cs

/-! ## Keywords and words -/

/-- The words that are no names. -/
inductive Keyword where
  | boolean
  | integer
  | void
  | struct
  | ifWord
  | elseWord
  | whileWord
  | input
  | disp
  | returnWord
  | trueWord
  | falseWord
deriving DecidableEq, Repr

namespace Keyword

/-- Every keyword. -/
def all : List Keyword :=
  [boolean, integer, void, struct, ifWord, elseWord, whileWord, input, disp, returnWord, trueWord,
    falseWord]

/-- The spelling of a keyword. -/
def chars : Keyword → List Char
  | boolean => ['b', 'o', 'o', 'l', 'e', 'a', 'n']
  | integer => ['i', 'n', 't', 'e', 'g', 'e', 'r']
  | void => ['v', 'o', 'i', 'd']
  | struct => ['s', 't', 'r', 'u', 'c', 't']
  | ifWord => ['i', 'f']
  | elseWord => ['e', 'l', 's', 'e']
  | whileWord => ['w', 'h', 'i', 'l', 'e']
  | input => ['i', 'n', 'p', 'u', 't']
  | disp => ['d', 'i', 's', 'p']
  | returnWord => ['r', 'e', 't', 'u', 'r', 'n']
  | trueWord => ['T', 'R', 'U', 'E']
  | falseWord => ['F', 'A', 'L', 'S', 'E']

end Keyword

/-- Whether the characters are a keyword. -/
def isKeyword (word : List Char) : Bool :=
  Keyword.all.any fun k => k.chars == word

/-- Whether a name can start with `c`: with a letter of ASCII or an underscore. -/
def isNameStart (c : Char) : Bool :=
  c.isAlpha || c == '_'

/-- Whether `c` goes on with a name; digits of ASCII do so, too. -/
def isNameChar (c : Char) : Bool :=
  c.isAlphanum || c == '_'

/-- Whether the characters are a word that can be a name. -/
def isName (word : List Char) : Bool :=
  word.head?.any isNameStart && word.all isNameChar && !isKeyword word

/-! ## Scanning -/

/-- Takes exactly the characters `s`. -/
def scanSymbol (s cs : List Char) : Option (Unit × List Char) :=
  (s.isPrefixOf? cs).map fun rest => ((), rest)

/-- Takes a keyword, unless a letter or a digit follows. -/
def scanKeyword (k : Keyword) (cs : List Char) : Option (Unit × List Char) :=
  (k.chars.isPrefixOf? cs).bind fun rest =>
    if rest.head?.any Text.isAlphanumeric then none else some ((), rest)

/-- Takes the first of some operators that is there. -/
def scanOperator (ops : List (List Char)) (cs : List Char) : Option (String × List Char) :=
  ops.findSome? fun op => (op.isPrefixOf? cs).map fun rest => (String.ofList op, rest)

/-- Takes one of some one-character operators, unless the same character follows. -/
def scanSingle (ops : List Char) : List Char → Option (String × List Char)
  | [] => none
  | c :: rest =>
    if ops.contains c && rest.head? != some c then some (String.singleton c, rest) else none

/-- Takes the longest word, if it can be a name. -/
def scanName (cs : List Char) : Option (String × List Char) :=
  let word := cs.takeWhile isNameChar
  if isName word then some (String.ofList word, cs.dropWhile isNameChar) else none

/-- Takes a string up to and including its closing quote, from behind the opening one. A backslash
takes the next character with it; a line feed is allowed nowhere. -/
def scanStringBody : List Char → Option (List Char × List Char)
  | [] => none
  | '"' :: rest => some (['"'], rest)
  | '\\' :: c :: rest =>
    if c == '\n' then none
    else (scanStringBody rest).map fun (body, rest) => ('\\' :: c :: body, rest)
  | c :: rest =>
    if c == '\n' || c == '\\' then none
    else (scanStringBody rest).map fun (body, rest) => (c :: body, rest)

/-- Takes a string with its quotes. -/
def scanString : List Char → Option (String × List Char)
  | '"' :: rest => (scanStringBody rest).map fun (body, rest) => (String.ofList ('"' :: body), rest)
  | _ => none

/-! ## Parsers of lexemes -/

open NameResolution.Grammar.Parser

/-- Skips trivia and reads what `scan` takes. -/
def lexeme {α : Type} (scan : List Char → Option (α × List Char)) : Parser α := fun _ cs =>
  match scan (skipTrivia cs) with
  | some (value, rest) => .matched value rest
  | none => .rejected

/-- The position of the next lexeme. -/
def here : Parser Position := fun ctx cs =>
  .matched (ctx.locate (skipTrivia cs)) cs

/-- Reads exactly the characters `s`. -/
def symbol (s : List Char) : Parser Unit := lexeme (scanSymbol s)

/-- Reads a keyword. -/
def keyword (k : Keyword) : Parser Unit := lexeme (scanKeyword k)

/-- Reads the first of some operators that is there. -/
def operator (ops : List (List Char)) : Parser String := lexeme (scanOperator ops)

/-- Reads a name. -/
def name : Parser String := lexeme scanName

/-- Reads a string. -/
def string : Parser String := lexeme scanString

/-- How many digits a number may have in a program. -/
def maxDigits : Nat := 4300

/-- Reads a number in the digits of any scripts. -/
def number : Parser Nat := fun ctx cs =>
  let start := skipTrivia cs
  let digits := start.takeWhile Text.isDecimalDigit
  if digits.isEmpty then .rejected
  else if ctx.limit < digits.length then .tooLong digits.length
  else .matched (Text.decimalValue digits) (start.dropWhile Text.isDecimalDigit)

/-- Skips trivia and matches only at the end of the text. -/
def endOfText : Parser Unit := lexeme fun cs =>
  if cs.isEmpty then some ((), []) else none

end NameResolution.Grammar
