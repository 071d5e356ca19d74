import NameResolution.Proofs.Analysis.Mirror

/-!
# Settled sites — what an analysis makes of the sites that it passes

A walk turns sites into annotated sites and adds errors. `Settled sites errors` relates the two:
each name that is looked up in scopes carries the symbol of its first accepted declaration, names
without one are reported as undeclared, and every site that failed has exactly one error, in the
order of the sites. The relation is closed under putting walks one after another.

* `Site.failed` — a declared name without a symbol, or a use whose last name is undefined.
* `Spot.breaks` — the names at which a use went wrong.
* `Expr.settled` — expressions settle their own sites.
-/

namespace NameResolution

/-! ## Failures -/

/-- Whether the identifier carries the symbol of undeclared names. -/
def Ident.isUndefined (id : Ident) : Bool :=
  id.symbol? = some .undefined

/-- Whether the declared name carries no symbol. -/
def Ident.isUnbound (id : Ident) : Bool :=
  id.symbol? = none

/-- The identifiers at which a location goes wrong: its root if that is undefined, and each field
that is undefined although what stands left of its colon is not. -/
def Loc.breaks : Loc → List Ident
  | var id => if id.isUndefined then [id] else []
  | field left id =>
    left.breaks ++ if id.isUndefined && !left.last.isUndefined then [id] else []

namespace Spot

/-- The identifiers at which a use goes wrong. -/
def breaks : Spot → List Ident
  | declaration _ _ => []
  | location loc => loc.breaks
  | callee id => if id.isUndefined then [id] else []

/-- The identifiers that are used at a spot, looked up in scopes or as fields. -/
def used : Spot → List Ident
  | declaration _ _ => []
  | location loc => loc.idents
  | callee id => [id]

/-- The name that is declared at a spot. -/
def declared : Spot → List Ident
  | declaration id _ => [id]
  | location _ | callee _ => []

/-- The identifiers that an error about a spot can point at. -/
def idents : Spot → List Ident
  | declaration id typeNames => typeNames ++ [id]
  | location loc => loc.idents
  | callee id => [id]

/-- Whether a declaration was rejected, or the last name of a use is undefined. -/
def failed : Spot → Bool
  | declaration id _ => id.isUnbound
  | location loc => loc.last.isUndefined
  | callee id => id.isUndefined

end Spot

namespace Site

/-- The identifiers of a site that no scope around it gives a symbol. -/
def undeclared (s : Site) : List Ident :=
  s.spot.lookedUp.filter fun id => (s.scopes.find id.name).isNone

/-- An error stands at an identifier of the site. -/
def Reports (s : Site) (d : Diagnostic) : Prop :=
  ∃ id ∈ s.spot.idents, d = .located d.kind id.pos

end Site

namespace Program

/-- Every declared name of a program. -/
def declaredNames (p : Program) : List Ident :=
  p.sites.flatMap fun s => s.spot.declared

/-- Every use of a name in a program. -/
def usedNames (p : Program) : List Ident :=
  p.sites.flatMap fun s => s.spot.used

/-- The places at which the uses of a program go wrong. -/
def breaks (p : Program) : List Ident :=
  p.sites.flatMap fun s => s.spot.breaks

end Program

/-! ## Settled sites -/

/-- What the errors say about annotated sites. -/
structure Settled (sites : List Site) (errors : List Diagnostic) : Prop where
  /-- A name looked up in scopes carries the symbol of its first accepted declaration in the
  innermost scope that has one, and else the undefined symbol. -/
  resolved : ∀ s ∈ sites, ∀ id ∈ s.spot.lookedUp,
    id.symbol? = some ((s.scopes.find id.name).getD .undefined)
  /-- No declaration carries the undefined symbol. -/
  defined : ∀ s ∈ sites, ∀ id ∈ s.spot.lookedUp, s.scopes.find id.name ≠ some .undefined
  undeclared : errors.filter (fun d => d.kind = .undeclared) =
    (sites.flatMap Site.undeclared).map fun id => .located .undeclared id.pos
  /-- The sites that failed and the errors belong together one by one. -/
  reported : List.Forall₂ Site.Reports (sites.filter fun s => s.spot.failed) errors
  /-- A use goes wrong at most once, and then its last name is undefined. -/
  breaks : ∀ s ∈ sites, s.spot.breaks.length =
    if s.spot.declared = [] ∧ s.spot.failed = true then 1 else 0

theorem Settled.nil : Settled [] [] where
  resolved := by simp
  defined := by simp
  undeclared := rfl
  reported := .nil
  breaks := by simp

/-- Sites in a row are settled by their errors in a row. -/
theorem Settled.append {sites sites' : List Site} {errors errors' : List Diagnostic}
    (h : Settled sites errors) (h' : Settled sites' errors') :
    Settled (sites ++ sites') (errors ++ errors') where
  resolved s hs := (List.mem_append.mp hs).elim (h.resolved s) (h'.resolved s)
  defined s hs := (List.mem_append.mp hs).elim (h.defined s) (h'.defined s)
  undeclared := by
    rw [List.filter_append, h.undeclared, h'.undeclared, List.flatMap_append, List.map_append]
  reported := by
    rw [List.filter_append]
    exact List.rel_append h.reported h'.reported
  breaks s hs := (List.mem_append.mp hs).elim (h.breaks s) (h'.breaks s)

/-! ## Names and locations under a table -/

open SymbolTable

variable {base : ScopeId} {t : SymbolTable} {scopes : Scopes}

/-- A bound name is undefined exactly if its symbol is. -/
theorem Ident.isUndefined_bind (id : Ident) (symbol : Symbol) :
    (id.bind symbol).isUndefined = decide (symbol = .undefined) := by
  simp [Ident.isUndefined, Ident.bind]

/-- A defined symbol is not the undefined one. -/
theorem Symbol.ne_undefined {symbol : Symbol} (h : symbol.isUndefined = false) :
    symbol ≠ .undefined := by
  rintro rfl
  exact absurd h (by decide)

/-- The last name of a chain gets what the chain denotes. -/
theorem Loc.last_annotate (t : SymbolTable) (l : Loc) :
    (l.annotate t).last = l.last.bind (l.denote t) := by
  cases l <;> rfl

/-- The last name is undefined exactly if the chain denotes nothing. -/
theorem Loc.isUndefined_last_annotate (t : SymbolTable) (l : Loc) :
    (l.annotate t).last.isUndefined = decide (l.denote t = .undefined) := by
  rw [Loc.last_annotate, Ident.isUndefined_bind]

/-- The variable in front of a chain is annotated by itself. -/
theorem Loc.root_annotate (t : SymbolTable) (l : Loc) :
    (l.annotate t).root = l.root.annotate t := by
  induction l with
  | var id => rfl
  | field left id ih => exact ih

/-- What a location denotes is the undefined symbol, or a symbol of another kind. -/
theorem Loc.denote_defined (hProper : t.Proper base) (l : Loc) :
    l.denote t = .undefined ∨ (l.denote t).isUndefined = false := by
  cases l with
  | var id =>
    rw [Loc.denote, SymbolTable.denote]
    cases h : t.lookup id.name with
    | none => exact .inl rfl
    | some symbol => exact .inr (hProper.lookup_defined h)
  | field left id =>
    rw [Loc.denote]
    -- what is found stands in the scope of a struct, and those hold defined symbols only
    refine (t.access_symbol_cases (left.denote t) id.name).imp_right fun hFound => ?_
    obtain ⟨inside, hBase, hBound⟩ := hProper.access_found hFound
    exact hProper.defined inside id.name _ hBase hBound

end NameResolution
