import NameResolution.Proofs.Analysis.Settled
import NameResolution.Proofs.Tree.Relabel

/-!
# Uses — expressions settle their own sites

Under a table that mirrors the scopes of the tree, a location breaks at one link or at none, and
the error says so once. Expressions are made of locations and callees, so the same holds of them.

* `Loc.diagnose_cases` — one error and an undefined location, or no error and a defined one.
* `Expr.settled`, `Expr.settledAll` — the sites of expressions.
-/

namespace NameResolution

open SymbolTable

variable {base : ScopeId} {t : SymbolTable} {scopes : Scopes}

/-! ## Where a location breaks -/

/-- A location is undefined and has one error, at one of its names, or it is neither. -/
theorem Loc.diagnose_cases (hProper : t.Proper base) (l : Loc) :
    (l.denote t = .undefined ∧
      ∃ d, l.diagnose t = [d] ∧ ∃ id ∈ l.idents, d = .located d.kind id.pos) ∨
    (l.denote t ≠ .undefined ∧ l.diagnose t = []) := by
  induction l with
  | var id =>
    rw [Loc.denote, SymbolTable.denote, Loc.diagnose, Ident.diagnose]
    cases h : t.lookup id.name with
    | none => exact .inl ⟨rfl, _, rfl, id, by simp [Loc.idents], rfl⟩
    | some symbol => exact .inr ⟨Symbol.ne_undefined (hProper.lookup_defined h), rfl⟩
  | field left id ih =>
    rw [Loc.denote, Loc.diagnose]
    rcases ih with ⟨hLeft, d, hd, hAt⟩ | ⟨hLeft, hNone⟩
    · -- the left side is broken, so nothing is added
      have hBroken : t.access (left.denote t) id.name = .broken := by
        rw [hLeft]
        rfl
      rw [hBroken, hd]
      obtain ⟨at', hMem, hPos⟩ := hAt
      exact .inl ⟨rfl, d, rfl, at', by simp [Loc.idents, hMem], hPos⟩
    -- the left side is fine, so the field decides
    · rw [hNone, List.nil_append]
      have hLast : left.last ∈ left.idents := by
        cases left <;> simp [Loc.last, Loc.idents]
      cases hAccess : t.access (left.denote t) id.name with
      | found symbol =>
        obtain ⟨inside, hBase, hFound⟩ := hProper.access_found hAccess
        have hDefined := hProper.defined inside id.name symbol hBase hFound
        exact .inr ⟨Symbol.ne_undefined hDefined, rfl⟩
      | broken =>
        -- not behind a left side that is defined
        rcases left.denote_defined hProper with h | h
        · exact absurd h hLeft
        · rw [access_broken hAccess] at h
          cases h
      | notStruct => exact .inl ⟨rfl, _, rfl, left.last, by simp [Loc.idents, hLast], rfl⟩
      | hidden => exact .inl ⟨rfl, _, rfl, left.last, by simp [Loc.idents, hLast], rfl⟩
      | noField => exact .inl ⟨rfl, _, rfl, id, by simp [Loc.idents], rfl⟩

/-- A chain breaks at most once, and does so exactly if it denotes nothing. -/
theorem Loc.breaks_annotate (t : SymbolTable) (l : Loc) :
    (l.annotate t).breaks.length = if l.denote t = .undefined then 1 else 0 := by
  induction l with
  | var id =>
    show (if (id.annotate t).isUndefined then [id.annotate t] else []).length = _
    rw [Ident.annotate, Ident.isUndefined_bind, Loc.denote]
    by_cases h : t.denote id.name = .undefined <;> simp [h]
  | field left id ih =>
    show ((left.annotate t).breaks ++
      if (id.bind _).isUndefined && !(left.annotate t).last.isUndefined then [_] else []).length = _
    rw [List.length_append, ih, Ident.isUndefined_bind, Loc.isUndefined_last_annotate]
    -- a left side that is undefined has its break already, and makes the whole undefined
    by_cases hLeft : left.denote t = .undefined
    · have hWhole : (Loc.field left id).denote t = .undefined := by
        rw [Loc.denote, hLeft]
        rfl
      simp [hLeft, hWhole]
    · by_cases hWhole : (Loc.field left id).denote t = .undefined <;> simp [hLeft, hWhole]

/-- Only the root of a location can be undeclared. -/
theorem Loc.undeclared_diagnose (t : SymbolTable) (l : Loc) :
    (l.diagnose t).filter (fun d => d.kind = .undeclared) =
      if (t.lookup l.root.name).isNone then [.located .undeclared l.root.pos] else [] := by
  induction l with
  | var id =>
    rw [Loc.diagnose, Ident.diagnose, Loc.root]
    cases t.lookup id.name <;> rfl
  | field left id ih =>
    rw [Loc.diagnose, List.filter_append, ih, Loc.root]
    -- no outcome of an access is reported as an undeclared name
    cases t.access (left.denote t) id.name <;> exact List.append_nil _

/-- Annotating a location moves none of its names. -/
theorem Loc.mem_idents_annotate (t : SymbolTable) {l : Loc} {id : Ident} (h : id ∈ l.idents) :
    ∃ id' ∈ (l.annotate t).idents, id'.pos = id.pos := by
  -- induction on the chain; a name is the last one or one of the shorter chain
  induction l with
  | var root =>
    obtain rfl := List.mem_singleton.mp h
    exact ⟨id.annotate t, List.mem_singleton.mpr rfl, rfl⟩
  | field left last ih =>
    rcases List.mem_append.mp h with h | h
    · obtain ⟨id', hMem, hPos⟩ := ih h
      exact ⟨id', List.mem_append_left _ hMem, hPos⟩
    · obtain rfl := List.mem_singleton.mp h
      exact ⟨_, List.mem_append_right _ (List.mem_singleton.mpr rfl), rfl⟩

/-! ## Sites of uses -/

/-- A name gets the symbol that its innermost declaration carries, or the undefined one. -/
theorem Ident.symbol_annotate (hMirrors : t.Mirrors scopes) (id : Ident) :
    (id.annotate t).symbol? = some ((scopes.find id.name).getD .undefined) := by
  rw [← hMirrors.lookup_eq]
  rfl

/-- Nothing in the scopes is undefined. -/
theorem find_ne_undefined (hMirrors : t.Mirrors scopes) (hProper : t.Proper base) (name : String) :
    scopes.find name ≠ some .undefined := by
  intro h
  rw [← hMirrors.lookup_eq] at h
  exact Symbol.ne_undefined (hProper.lookup_defined h) rfl

/-- The site of a location is settled: every name has its symbol, or the errors say why not. -/
theorem Loc.settled (hMirrors : t.Mirrors scopes) (hProper : t.Proper base) (l : Loc) :
    Settled (sitesIn scopes [.location (l.annotate t)]) (l.diagnose t) where
  resolved s hs id hid := by
    obtain rfl := List.mem_singleton.mp hs
    obtain rfl := List.mem_singleton.mp hid
    rw [Loc.root_annotate]
    exact Ident.symbol_annotate hMirrors l.root
  defined s hs id _ := by
    obtain rfl := List.mem_singleton.mp hs
    exact find_ne_undefined hMirrors hProper id.name
  undeclared := by
    rw [Loc.undeclared_diagnose, hMirrors.lookup_eq]
    simp only [sitesIn, List.map_cons, List.map_nil, List.flatMap_singleton, Site.undeclared,
      Spot.lookedUp, Loc.root_annotate, Ident.annotate, Ident.bind, List.filter_singleton]
    cases scopes.find l.root.name <;> rfl
  reported := by
    rw [sitesIn, List.map_singleton, List.filter_singleton]
    simp only [Spot.failed, Loc.isUndefined_last_annotate]
    -- a failed site has one error, at a name that keeps its position; any other has none
    rcases l.diagnose_cases hProper with ⟨hUndefined, d, hd, id, hMem, hPos⟩ | ⟨hDefined, hNone⟩
    · rw [decide_eq_true hUndefined, cond_true, hd]
      obtain ⟨id', hMem', hPos'⟩ := Loc.mem_idents_annotate t hMem
      exact .cons ⟨id', hMem', by rw [hPos']; exact hPos⟩ .nil
    · rw [decide_eq_false hDefined, cond_false, hNone]
      exact .nil
  breaks s hs := by
    obtain rfl := List.mem_singleton.mp hs
    simp only [Spot.breaks, Spot.declared, Spot.failed, true_and,
      Loc.isUndefined_last_annotate, decide_eq_true_eq]
    exact Loc.breaks_annotate t l

/-- A callee is settled like a variable. -/
theorem Settled.callee {id : Ident} {errors : List Diagnostic}
    (h : Settled (sitesIn scopes [.location (.var id)]) errors) :
    Settled (sitesIn scopes [.callee id]) errors where
  resolved s hs := by
    obtain rfl := List.mem_singleton.mp hs
    exact h.resolved ⟨scopes, .location (.var id)⟩ (List.mem_singleton.mpr rfl)
  defined s hs := by
    obtain rfl := List.mem_singleton.mp hs
    exact h.defined ⟨scopes, .location (.var id)⟩ (List.mem_singleton.mpr rfl)
  undeclared := h.undeclared
  reported := by
    have hReported := h.reported
    rw [sitesIn, List.map_singleton, List.filter_singleton] at hReported ⊢
    simp only [Spot.failed, Loc.last] at hReported ⊢
    -- both spots fail exactly if the name is undefined
    cases hFailed : id.isUndefined with
    | true =>
      rw [hFailed] at hReported
      obtain - | ⟨hReports, hRest⟩ := hReported
      exact .cons hReports hRest
    | false =>
      rw [hFailed] at hReported
      exact hReported
  breaks s hs := by
    obtain rfl := List.mem_singleton.mp hs
    exact h.breaks ⟨scopes, .location (.var id)⟩ (List.mem_singleton.mpr rfl)

/-- The site of a callee is settled. -/
theorem Ident.settled (hMirrors : t.Mirrors scopes) (hProper : t.Proper base) (id : Ident) :
    Settled (sitesIn scopes [.callee (id.annotate t)]) (id.diagnose t) :=
  (Loc.settled hMirrors hProper (.var id)).callee

mutual

/-- All sites of an expression are settled, in the order of the text. -/
theorem Expr.settled (hMirrors : t.Mirrors scopes) (hProper : t.Proper base) :
    (e : Expr) → Settled (sitesIn scopes (e.annotate t).spots) (e.diagnose t)
  | .trueLit _ | .falseLit _ | .intLit _ _ | .strLit _ _ => .nil
  | .loc location => Loc.settled hMirrors hProper location
  -- the errors of the target come first, as its sites do
  | .assign target value => by
    rw [Expr.annotate, Expr.diagnose, Expr.spots]
    exact (Loc.settled hMirrors hProper target).append (Expr.settled hMirrors hProper value)
  | .call callee args => by
    rw [Expr.annotate, Expr.diagnose, Expr.spots]
    exact (Ident.settled hMirrors hProper callee).append
      (Expr.settledAll hMirrors hProper args)
  | .unary op operand => by
    rw [Expr.annotate, Expr.diagnose, Expr.spots]
    exact Expr.settled hMirrors hProper operand
  | .binary op left right => by
    rw [Expr.annotate, Expr.diagnose, Expr.spots, sitesIn_append]
    exact (Expr.settled hMirrors hProper left).append (Expr.settled hMirrors hProper right)

theorem Expr.settledAll (hMirrors : t.Mirrors scopes) (hProper : t.Proper base) :
    (es : List Expr) →
      Settled (sitesIn scopes (Expr.spotsAll (Expr.annotateAll t es))) (Expr.diagnoseAll t es)
  | [] => .nil
  | e :: es => by
    rw [Expr.annotateAll, Expr.diagnoseAll, Expr.spotsAll, sitesIn_append]
    exact (Expr.settled hMirrors hProper e).append (Expr.settledAll hMirrors hProper es)

end

/-! ## Annotated trees without their symbols -/

/-- Annotating a location changes nothing but its symbols. -/
theorem Loc.bare_annotate (t : SymbolTable) (l : Loc) :
    (l.annotate t).relabel Ident.bare = l.relabel Ident.bare := by
  induction l with
  | var id => rfl
  | field left id ih =>
    rw [Loc.annotate, Loc.relabel, Loc.relabel, ih]
    rfl

mutual

/-- Annotating an expression changes nothing but its symbols. -/
theorem Expr.bare_annotate (t : SymbolTable) :
    (e : Expr) → (e.annotate t).relabel id Ident.bare = e.relabel id Ident.bare
  | .trueLit _ | .falseLit _ | .intLit _ _ | .strLit _ _ => rfl
  | .loc location => by rw [Expr.annotate, Expr.relabel, Expr.relabel, Loc.bare_annotate]
  | .assign target value => by
    rw [Expr.annotate, Expr.relabel, Expr.relabel, Loc.bare_annotate, Expr.bare_annotate t value]
  | .call callee args => by
    rw [Expr.annotate, Expr.relabel, Expr.relabel, Expr.bare_annotateAll t args]
    rfl
  | .unary op operand => by
    rw [Expr.annotate, Expr.relabel, Expr.relabel, Expr.bare_annotate t operand]
  | .binary op left right => by
    rw [Expr.annotate, Expr.relabel, Expr.relabel, Expr.bare_annotate t left,
      Expr.bare_annotate t right]

theorem Expr.bare_annotateAll (t : SymbolTable) :
    (es : List Expr) →
      Expr.relabelAll id Ident.bare (Expr.annotateAll t es) = Expr.relabelAll id Ident.bare es
  | [] => rfl
  | e :: es => by
    rw [Expr.annotateAll, Expr.relabelAll, Expr.relabelAll, Expr.bare_annotate t e,
      Expr.bare_annotateAll t es]

end

end NameResolution
