/-!
# Captures — what repetitions hand over, and folding operators over it

The parts of a construct come as nested lists in which some are absent. Flattened, a repetition of
an operator and its operand is a list that alternates between the two, and it folds to the left.

* `Capture.flatten`, `Capture.nodes` — the parts, without nesting and gaps.
* `pairUp`, `foldPairs`, `Capture.fold` — operators and operands, combined to the left.
-/

namespace NameResolution.Grammar

/-! ## Folding -/

/-- Neighbours two by two; a last one without a partner is left out. -/
def pairUp {α : Type} : List α → List (α × α)
  | a :: b :: rest => (a, b) :: pairUp rest
  | _ => []

/-- Combines `first` with each operator and operand in turn. -/
def foldPairs {ω α β : Type} (combine : ω → β → α → β) (first : β) (pairs : List (ω × α)) : β :=
  pairs.foldl (fun left (op, right) => combine op left right) first

/-! ## Nested captures -/

/-- A part of a construct. -/
inductive Capture (α : Type) where
  | absent
  | text (s : String)
  | leaf (value : α)
  | list (items : List (Capture α))
  /-- Parts under names. -/
  | record (parts : List (String × Capture α))
deriving Inhabited

namespace Capture

variable {α : Type}

mutual

/-- The parts that are not lists, in order; absent ones are left out. -/
def flatten : Capture α → List (Capture α)
  | absent => []
  | list items => flattenAll items
  | part => [part]

def flattenAll : List (Capture α) → List (Capture α)
  | [] => []
  | c :: cs => c.flatten ++ flattenAll cs

end

/-- Whether the part is text, as separators and operators are. -/
def isText : Capture α → Bool
  | text _ => true
  | _ => false

/-- The parts without the texts. -/
def nodes (c : Capture α) : List (Capture α) :=
  c.flatten.filter fun part => !part.isText

/-- The part under a name; nothing but a record has any. -/
def get (c : Capture α) (key : String) : Capture α :=
  match c with
  | record parts => (parts.lookup key).getD absent
  | _ => absent

/-- Folds the operators and operands of `rest` onto `first`. -/
def fold {β : Type} (combine : Capture α → β → Capture α → β) (first : β) (rest : Capture α) : β :=
  foldPairs combine first (pairUp rest.flatten)

end Capture

end NameResolution.Grammar
