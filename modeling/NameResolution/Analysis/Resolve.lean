import NameResolution.Analysis.Use

/-!
# Resolving — the steps that a walk over declarations and statements is made of

A part of the walk looks at the symbol table, replaces it and reports errors, one after another. It
is written down as these steps, so that one can speak of every moment between two of them. Its run
carries the symbol table, the errors found so far and the sink that each error is passed on to.

* `State`, `State.report` — what a run carries, and what a report does to it.
* `Resolve` — a part of the walk as its steps, and how parts follow one another.
* `Resolve.run` — what comes of a part.
* `declare` — binds a declared name, or reports that its scope binds it already.
* `inScope` — a part of the walk inside a scope of its own.
-/

namespace NameResolution.Analysis

/-- The symbol table, the errors found so far in report order, and the sink they are passed to. -/
structure State where
  table : SymbolTable
  diagnostics : List Diagnostic := []
  sink : Collector := {}
deriving DecidableEq, Repr

/-- Records an error behind those found so far, and passes it on to the sink. -/
def State.report (s : State) (d : Diagnostic) : State :=
  { s with diagnostics := s.diagnostics ++ [d], sink := s.sink.report d }

/-- A part of the walk: the steps that it takes, up to its answer. -/
inductive Resolve (α : Type) where
  /-- No step is left, the answer is known. -/
  | done (x : α)
  /-- A stack operation has failed. -/
  | fail (e : ScopeError)
  /-- Looks at the symbol table. -/
  | look (next : SymbolTable → Resolve α)
  /-- Goes on with another symbol table. -/
  | swap (t : SymbolTable) (next : Resolve α)
  /-- Reports an error. -/
  | tell (d : Diagnostic) (next : Resolve α)

namespace Resolve

variable {α β : Type}

/-- The steps of a part, and then those that its answer asks for. -/
def bind : Resolve α → (α → Resolve β) → Resolve β
  | done x, rest => rest x
  | fail e, _ => fail e
  | look next, rest => look fun t => (next t).bind rest
  | swap t next, rest => swap t (next.bind rest)
  | tell d next, rest => tell d (next.bind rest)

instance : Monad Resolve where
  pure := done
  bind := bind

/-- A stack operation takes no step. -/
instance : MonadLift (Except ScopeError) Resolve where
  monadLift
    | .ok x => done x
    | .error e => fail e

/-- Takes all steps from a state on. The answer comes with the state after the last step. -/
def run : Resolve α → State → Except ScopeError (α × State)
  | done x, s => .ok (x, s)
  | fail e, _ => .error e
  | look next, s => (next s.table).run s
  | swap t next, s => next.run { s with table := t }
  | tell d next, s => next.run (s.report d)

/-! ### Laws -/

/-- Nothing follows the answer. -/
theorem bind_done (part : Resolve α) : part.bind done = part := by
  induction part with
  | done x => rfl
  | fail e => rfl
  | look next ih => exact congrArg look (funext ih)
  | swap t next ih => exact congrArg (swap t) ih
  | tell d next ih => exact congrArg (tell d) ih

/-- What follows a part can be bracketed either way. -/
theorem bind_assoc {γ : Type} (part : Resolve α) (f : α → Resolve β) (g : β → Resolve γ) :
    (part.bind f).bind g = part.bind fun x => (f x).bind g := by
  induction part with
  | done x => rfl
  | fail e => rfl
  | look next ih => exact congrArg look (funext ih)
  | swap t next ih => exact congrArg (swap t) ih
  | tell d next ih => exact congrArg (tell d) ih

instance : LawfulMonad Resolve :=
  LawfulMonad.mk' Resolve bind_done (fun _ _ => rfl) bind_assoc

/-- A run of two parts is a run of the second one from where the first one has ended. -/
theorem run_bind (part : Resolve α) (rest : α → Resolve β) (s : State) :
    (part >>= rest).run s = part.run s >>= fun (x, s') => (rest x).run s' := by
  -- induction on the steps of the part; each step hands its new state to the rest
  induction part generalizing s with
  | done x => rfl
  | fail e => rfl
  | look next ih => exact ih s.table s
  | swap t next ih => exact ih { s with table := t }
  | tell d next ih => exact ih (s.report d)

end Resolve

/-! ## Reading and reporting -/

/-- Reports errors one after another. -/
def report : List Diagnostic → Resolve Unit
  | [] => pure ()
  | d :: ds => .tell d (report ds)

/-- Reports an error at an identifier. -/
def reportAt (kind : DiagnosticKind) (id : Ident) : Resolve Unit :=
  report [.located kind id.pos]

/-- The symbol table as it is now. -/
def getTable : Resolve SymbolTable :=
  .look pure

/-- Goes on with another symbol table. -/
def setTable (t : SymbolTable) : Resolve Unit :=
  .swap t (pure ())

/-- Reports the errors of an identifier that is used, and puts its symbol on it. -/
def useIdent (id : Ident) : Resolve Ident := do
  let t ← getTable
  report (id.diagnose t)
  pure (id.annotate t)

/-- Reports the errors of a location and annotates it. -/
def useLoc (location : Loc) : Resolve Loc := do
  let t ← getTable
  report (location.diagnose t)
  pure (location.annotate t)

/-- Reports the errors of an expression and annotates it. -/
def useExpr (e : Expr) : Resolve Expr := do
  let t ← getTable
  report (e.diagnose t)
  pure (e.annotate t)

/-- Reports the errors of some expressions and annotates them. -/
def useExprs (es : List Expr) : Resolve (List Expr) := do
  let t ← getTable
  report (Expr.diagnoseAll t es)
  pure (Expr.annotateAll t es)

/-! ## Scopes -/

/-- The innermost open scope. -/
def currentScope : Resolve ScopeId := do
  let t ← getTable
  t.current

/-- A new scope that is not opened. -/
def newScope : Resolve ScopeId := do
  let (id, t) := (← getTable).newScope
  setTable t
  pure id

/-- Walks `part` inside a new innermost scope, and leaves that scope afterwards. -/
def inScope {α : Type} (part : Resolve α) : Resolve α := do
  setTable (← getTable).push.2
  let result ← part
  let (_, t) ← (← getTable).pop
  setTable t
  pure result

/-! ## Declaring -/

/-- Binds the name of `id` in a scope to a new symbol and puts the symbol on `id`. A name that the
scope binds already is reported, and nothing is bound. -/
def declare (scope : ScopeId) (id : Ident) (meaning : Meaning) : Resolve Ident := do
  let symbol : Symbol := ⟨.declared scope id.name, meaning⟩
  match (← getTable).declareIn scope id.name symbol with
  | none =>
    reportAt .multiplyDeclared id
    pure id
  | some t =>
    setTable t
    pure (id.bind symbol)

/-- Binds the name of `id` in the innermost scope. -/
def declareHere (id : Ident) (meaning : Meaning) : Resolve Ident := do
  declare (← currentScope) id meaning

end NameResolution.Analysis
