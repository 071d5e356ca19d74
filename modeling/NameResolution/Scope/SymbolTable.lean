import NameResolution.Scope.Bindings
import NameResolution.Text.Decimal

/-!
# The symbol table — a stack of scopes over a store of all scopes

Every scope that was ever made stays in the store under its number, so a scope that has left the
stack, or was never on it such as the field table of a struct, can still be read and extended
through that number. The stack says which scopes are open, and a name is looked up from the
innermost open scope outwards.

* `push`, `pop`, `declare` — entering, leaving and filling the innermost scope.
* `lookup`, `lookupLocal`, `visible` — what a name means inside all open scopes.
-/

namespace NameResolution

/-- A use of the scope stack when no scope is open. -/
inductive ScopeError where
  /-- There is no scope to leave. -/
  | nothingToPop
  /-- There is no innermost scope. -/
  | noScope
deriving DecidableEq, Repr

/-- What is said about the error. -/
def ScopeError.message : ScopeError → String
  | nothingToPop => "Cannot pop a scope from an empty symbol table."
  | noScope => "Symbol table has no scopes."

/-- All scopes ever made, and the open ones. -/
structure SymbolTable where
  /-- Every scope under its number. -/
  store : List Scope
  /-- The open scopes, the innermost first. -/
  stack : List ScopeId
deriving DecidableEq, Repr

namespace SymbolTable

/-- The table with one open scope, the global one. -/
def new : SymbolTable := ⟨[{}], [0]⟩

/-- How many scopes are open. -/
def depth (t : SymbolTable) : Nat := t.stack.length

/-! ## Scopes by number -/

/-- The scope of a number. -/
def scope (t : SymbolTable) (id : ScopeId) : Scope :=
  t.store.getD id {}

/-- A new scope that is not on the stack. -/
def newScope (t : SymbolTable) : ScopeId × SymbolTable :=
  (t.store.length, { t with store := t.store ++ [{}] })

/-- The table after `name` has been bound in a scope; `none` if the scope binds it already. -/
def declareIn (t : SymbolTable) (id : ScopeId) (name : String) (symbol : Symbol) :
    Option SymbolTable :=
  if (t.scope id).contains name then none
  else some { t with store := t.store.set id ((t.scope id).bind name symbol) }

/-! ## The stack -/

/-- The innermost open scope. -/
def current (t : SymbolTable) : Except ScopeError ScopeId :=
  match t.stack with
  | [] => .error .noScope
  | id :: _ => .ok id

/-- Opens a new scope inside the others. -/
def push (t : SymbolTable) : ScopeId × SymbolTable :=
  let (id, t) := t.newScope
  (id, { t with stack := id :: t.stack })

/-- Leaves the innermost scope. -/
def pop (t : SymbolTable) : Except ScopeError (ScopeId × SymbolTable) :=
  match t.stack with
  | [] => .error .nothingToPop
  | id :: stack => .ok (id, { t with stack := stack })

/-- Binds a name in the innermost scope; `none` if that scope binds it already. -/
def declare (t : SymbolTable) (name : String) (symbol : Symbol) :
    Except ScopeError (Option SymbolTable) :=
  t.current.map fun id => t.declareIn id name symbol

/-- The same store with a new global scope as the only open one. -/
def restart (t : SymbolTable) : SymbolTable :=
  let (id, t) := t.newScope
  { t with stack := [id] }

/-! ## Looking names up -/

/-- The symbol that the innermost scope binds to a name. -/
def lookupLocal (t : SymbolTable) (name : String) : Option Symbol :=
  t.stack.head?.bind fun id => (t.scope id).lookup name

/-- The symbol of a name in the innermost scope that binds it. -/
def lookup (t : SymbolTable) (name : String) : Option Symbol :=
  t.stack.findSome? fun id => (t.scope id).lookup name

/-- The bindings after one more: a name that is bound already keeps its place and takes the new
symbol. -/
def overwrite (bindings : List (String × Symbol)) (name : String) (symbol : Symbol) :
    List (String × Symbol) :=
  match bindings with
  | [] => [(name, symbol)]
  | (n, s) :: rest =>
    if n = name then (n, symbol) :: rest else (n, s) :: overwrite rest name symbol

/-- Every visible name once, with the symbol it stands for: the outermost scope first, and each
scope in order of declaration. -/
def visible (t : SymbolTable) : List (String × Symbol) :=
  (t.stack.reverse.flatMap fun id => (t.scope id).bindings).foldl
    (fun seen (name, symbol) => overwrite seen name symbol) []

/-! ## Printing -/

/-- The open scopes, one a line, the outermost first. -/
def scopeLines (t : SymbolTable) : List String :=
  t.stack.reverse.zipIdx.map fun (id, level) =>
    "  [" ++ Text.decimalText level ++ "] " ++ (t.scope id).text

/-- The table as it is shown. -/
def text (t : SymbolTable) : String :=
  "\n".intercalate (["*** SymbolTable ***"] ++ t.scopeLines ++ ["*** DONE ***"])

end SymbolTable

end NameResolution
