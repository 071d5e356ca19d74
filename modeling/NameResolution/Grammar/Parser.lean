import NameResolution.Text.Position

/-!
# Parsers — ordered choice over the characters of a text

A parser reads a construct at the start of a text. It matches and leaves the rest, or it rejects
the text, or it finds a number with too many digits, and then nothing else is tried any more.
Alternatives are tried in order and the first match is final; a repetition takes all that it can
get.

A parser is also told where each ending of the text begins, so that a leaf can note its position,
and how many digits a number may have.

* `orElse`, `optional`, `many`, `sepBy`, `notAhead` — choice, repetition and lookahead.
* `fix` — a parser that is defined through itself.
-/

namespace NameResolution.Grammar

/-- What becomes of reading a construct. -/
inductive Outcome (α : Type) where
  /-- The construct was read, and `rest` follows it. -/
  | matched (value : α) (rest : List Char)
  /-- The text does not start with the construct. -/
  | rejected
  /-- A number of that many digits, too many, was read on the way. -/
  | tooLong (digits : Nat)
deriving DecidableEq, Repr

/-- What a parser is told besides the text in front of it. -/
structure Context where
  /-- The position of every ending of the text. -/
  locate : List Char → Position
  /-- How many digits a number may have. -/
  limit : Nat

/-- Reads a construct at the start of a text. -/
def Parser (α : Type) : Type := Context → List Char → Outcome α

namespace Parser

/-! ## Sequence -/

/-- Reads nothing. -/
def succeed {α : Type} (value : α) : Parser α := fun _ cs => .matched value cs

/-- Reads `p`, then what `next` makes of it. -/
def andThen {α β : Type} (p : Parser α) (next : α → Parser β) : Parser β := fun ctx cs =>
  match p ctx cs with
  | .matched value rest => next value ctx rest
  | .rejected => .rejected
  | .tooLong digits => .tooLong digits

instance : Monad Parser where
  pure := succeed
  bind := andThen

/-! ## Choice -/

/-- Matches nothing. -/
def reject {α : Type} : Parser α := fun _ _ => .rejected

/-- Reads `p`, or `q` where `p` rejects the text. -/
def orElse {α : Type} (p q : Parser α) : Parser α := fun ctx cs =>
  match p ctx cs with
  | .rejected => q ctx cs
  | outcome => outcome

instance {α : Type} : OrElse (Parser α) where
  orElse p q := p.orElse (q ())

/-- Reads `p` if it is there. -/
def optional {α : Type} (p : Parser α) : Parser (Option α) :=
  (some <$> p) <|> pure none

/-- Reads nothing, and rejects a text that starts with `p`. -/
def notAhead {α : Type} (p : Parser α) : Parser Unit := fun ctx cs =>
  match p ctx cs with
  | .matched _ _ => .rejected
  | .rejected => .matched () cs
  | .tooLong digits => .tooLong digits

/-! ## Repetition -/

/-- Reads `p` as often as it is there, at most `n` times. -/
def manyUpTo {α : Type} (p : Parser α) : Nat → Parser (List α)
  | 0 => pure []
  | n + 1 => fun ctx cs =>
    match p ctx cs with
    | .matched value rest => ((value :: ·) <$> manyUpTo p n) ctx rest
    | .rejected => .matched [] cs
    | .tooLong digits => .tooLong digits

/-- Reads `p` as often as it is there. Each time takes at least one character, so the length of the
text bounds their number. -/
def many {α : Type} (p : Parser α) : Parser (List α) := fun ctx cs =>
  manyUpTo p cs.length ctx cs

/-- Reads `p` at least once and as often as it is there. -/
def many1 {α : Type} (p : Parser α) : Parser (List α) := do
  let first ← p
  let others ← many p
  pure (first :: others)

/-- Reads any number of `p`, each after the first behind a `separator`. The first may be missing all
the same, so that the whole starts with a separator. -/
def sepBy {α σ : Type} (p : Parser α) (separator : Parser σ) : Parser (List α) := do
  let first? ← optional p
  let others ← many (do
    let _ ← separator
    p)
  pure (first?.toList ++ others)

/-! ## Recursion -/

/-- The parser that `rule` defines, entered from itself at most `n` times. -/
def unroll {α : Type} (rule : Parser α → Parser α) : Nat → Parser α
  | 0 => reject
  | n + 1 => fun ctx cs => rule (unroll rule n) ctx cs

/-- The parser that `rule` defines when it is given itself. It must read at least one character
before it enters itself again, so the length of the text bounds how often it does. -/
def fix {α : Type} (rule : Parser α → Parser α) : Parser α := fun ctx cs =>
  unroll rule (cs.length + 1) ctx cs

end Parser

end NameResolution.Grammar
