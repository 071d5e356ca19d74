import NameResolution.Scope.Symbol

/-!
# Scopes — the names that one block or one struct binds

A scope keeps its bindings in order of declaration, and binds each name once: the first
declaration stays.
-/

namespace NameResolution

/-- Names with their symbols, the first declaration first. -/
structure Scope where
  bindings : List (String × Symbol) := []
deriving DecidableEq, Repr

namespace Scope

/-- The symbol of a name. -/
def lookup (s : Scope) (name : String) : Option Symbol :=
  s.bindings.lookup name

/-- Whether the scope binds the name. -/
def contains (s : Scope) (name : String) : Bool :=
  (s.lookup name).isSome

/-- The scope with one more binding at its end. -/
def bind (s : Scope) (name : String) (symbol : Symbol) : Scope :=
  ⟨s.bindings ++ [(name, symbol)]⟩

/-- The bound names, in order of declaration. -/
def names (s : Scope) : List String :=
  s.bindings.map (·.1)

/-- How many names the scope binds. -/
def size (s : Scope) : Nat :=
  s.bindings.length

/-- The scope as it is shown: each name with the text of its symbol. -/
def text (s : Scope) : String :=
  "Scope(" ++ ", ".intercalate (s.bindings.map fun (name, symbol) => name ++ "=" ++ symbol.text)
    ++ ")"

end Scope

end NameResolution
