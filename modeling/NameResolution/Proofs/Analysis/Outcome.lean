import NameResolution.Proofs.Analysis.Yields

/-!
# Outcomes — everything a declaration can come to

Each declaration either puts a symbol on its name or reports one error. `Declares` is what becomes
of binding a name, `VarDecl.Outcome` what becomes of a variable or a field, with the conditions in
the order in which they are tested.
-/

namespace NameResolution

open Analysis

/-- The symbol that a declaration of `name` in a scope introduces. -/
def declaredSymbol (scope : ScopeId) (name : String) (meaning : Meaning) : Symbol :=
  ⟨.declared scope name, meaning⟩

/-- What becomes of binding the name of `id` in a scope: the identifier, table and errors after
it. -/
inductive Declares (scope : ScopeId) (id : Ident) (meaning : Meaning) (t : SymbolTable) :
    Ident → SymbolTable → List Diagnostic → Prop where
  /-- The scope binds the name already. -/
  | taken (h : t.declareIn scope id.name (declaredSymbol scope id.name meaning) = none) :
    Declares scope id meaning t id t [.located .multiplyDeclared id.pos]
  | bound {t' : SymbolTable}
    (h : t.declareIn scope id.name (declaredSymbol scope id.name meaning) = some t') :
    Declares scope id meaning t (id.bind (declaredSymbol scope id.name meaning)) t' []

theorem declare_yields (scope : ScopeId) (id : Ident) (meaning : Meaning) (t : SymbolTable) :
    ∃ id' t' ds, Yields (declare scope id meaning) t id' t' ds ∧
      Declares scope id meaning t id' t' ds := by
  -- the binding is refused or goes through
  cases h : t.declareIn scope id.name (declaredSymbol scope id.name meaning) with
  | none =>
    refine ⟨id, t, _, ?_, .taken h⟩
    refine (getTable_yields t).bind_silent ?_
    rw [declaredSymbol] at h
    rw [h]
    exact (report_yields _ t).bind_pure fun _ => id
  | some t' =>
    refine ⟨_, t', [], ?_, .bound h⟩
    refine (getTable_yields t).bind_silent ?_
    rw [declaredSymbol] at h
    rw [h]
    exact (setTable_yields t t').bind_silent (Yields.pure _ t')

/-- A name is declared in the innermost scope. -/
theorem declareHere_yields {scope : ScopeId} {rest : List ScopeId} {t : SymbolTable}
    (hStack : t.stack = scope :: rest) (id : Ident) (meaning : Meaning) :
    ∃ id' t' ds, Yields (declareHere id meaning) t id' t' ds ∧
      Declares scope id meaning t id' t' ds := by
  obtain ⟨id', t', ds, hYields, hDeclares⟩ := declare_yields scope id meaning t
  exact ⟨id', t', ds, (currentScope_yields hStack).bind_silent hYields, hDeclares⟩

/-! ## Variables and fields -/

/-- The type of a declaration and the meaning it gives to the name, if it can be given one: a
struct type must name a visible struct. -/
inductive TypeRef.Gives (t : SymbolTable) : TypeRef → TypeRef → Meaning → Prop where
  | boolean : Gives t .boolean .boolean (.regular "boolean")
  | integer : Gives t .integer .integer (.regular "integer")
  | struct {id : Ident} {symbol : Symbol} (h : t.lookupStruct id.name = some symbol) :
    Gives t (.struct id) (.struct (id.bind symbol)) (.structVar id.name)

/-- What becomes of declaring a variable in a scope. -/
inductive VarDecl.Outcome (t : SymbolTable) (scope : ScopeId) (d : VarDecl) :
    VarDecl → SymbolTable → List Diagnostic → Prop where
  /-- The name is that of a formal of the scope, and stands for it. -/
  | formal {symbol : Symbol} (hFound : (t.scope scope).lookup d.id.name = some symbol)
    (hFormal : symbol.isFormal = true) :
    Outcome t scope d { d with id := d.id.bind symbol } t []
  | void (hFormal : ((t.scope scope).lookup d.id.name).filter Symbol.isFormal = none)
    (hType : d.type = .void) :
    Outcome t scope d d t [.located .declaredVoid d.id.pos]
  | noStruct {structId : Ident}
    (hFormal : ((t.scope scope).lookup d.id.name).filter Symbol.isFormal = none)
    (hType : d.type = .struct structId) (hStruct : t.lookupStruct structId.name = none) :
    Outcome t scope d d t [.located .invalidStructType structId.pos]
  /-- The type is good, so the name is bound if it is free. -/
  | typed {type' : TypeRef} {meaning : Meaning} {id' : Ident} {t' : SymbolTable}
    {ds : List Diagnostic}
    (hFormal : ((t.scope scope).lookup d.id.name).filter Symbol.isFormal = none)
    (hGives : TypeRef.Gives t d.type type' meaning)
    (hDeclares : Declares scope d.id meaning t id' t' ds) :
    Outcome t scope d { d with type := type', id := id' } t' ds

/-- A variable whose type is good is bound if its name is free. -/
theorem VarDecl.typed_yields {t : SymbolTable} {scope : ScopeId} {d : VarDecl} {type' : TypeRef}
    {meaning : Meaning}
    (hFormal : ((t.scope scope).lookup d.id.name).filter Symbol.isFormal = none)
    (hGives : TypeRef.Gives t d.type type' meaning) :
    ∃ d' t' ds,
      Yields (declare scope d.id meaning >>= fun id => pure { d with type := type', id := id })
        t d' t' ds ∧ d.Outcome t scope d' t' ds := by
  obtain ⟨id', t', ds, hYields, hDeclares⟩ := declare_yields scope d.id meaning t
  exact ⟨_, t', ds, hYields.bind_pure fun id => { d with type := type', id := id },
    .typed hFormal hGives hDeclares⟩

/-- A variable or a field comes to one of the outcomes. -/
theorem VarDecl.resolveIn_yields (scope : ScopeId) (d : VarDecl) (t : SymbolTable) :
    ∃ d' t' ds, Yields (d.resolveIn scope) t d' t' ds ∧ d.Outcome t scope d' t' ds := by
  unfold VarDecl.resolveIn
  -- the conditions are tested in this order: a formal of the name, the type, a struct of its name
  cases hExisting : ((t.scope scope).lookup d.id.name).filter Symbol.isFormal with
  | some symbol =>
    obtain ⟨hFound, hFormal⟩ := Option.filter_eq_some_iff.mp hExisting
    refine ⟨_, t, [], (getTable_yields t).bind_silent ?_, .formal hFound hFormal⟩
    rw [hExisting]
    exact Yields.pure _ t
  | none =>
    cases hType : d.type with
    | void =>
      refine ⟨d, t, _, (getTable_yields t).bind_silent ?_, .void hExisting hType⟩
      rw [hExisting]
      exact (report_yields _ t).bind_pure fun _ => d
    | struct structId =>
      cases hStruct : t.lookupStruct structId.name with
      | none =>
        refine ⟨d, t, _, (getTable_yields t).bind_silent ?_, .noStruct hExisting hType hStruct⟩
        rw [hExisting]
        dsimp only
        rw [hStruct]
        exact (report_yields _ t).bind_pure fun _ => d
      | some symbol =>
        have hGives : TypeRef.Gives t d.type (.struct (structId.bind symbol))
            (.structVar structId.name) := by
          rw [hType]
          exact .struct hStruct
        obtain ⟨d', t', ds, hYields, hOutcome⟩ := VarDecl.typed_yields hExisting hGives
        refine ⟨d', t', ds, (getTable_yields t).bind_silent ?_, hOutcome⟩
        rw [hExisting]
        dsimp only
        rw [hStruct]
        exact hYields
    | boolean =>
      have hGives : TypeRef.Gives t d.type .boolean (.regular "boolean") := by
        rw [hType]
        exact .boolean
      obtain ⟨d', t', ds, hYields, hOutcome⟩ := VarDecl.typed_yields hExisting hGives
      refine ⟨d', t', ds, (getTable_yields t).bind_silent ?_, hOutcome⟩
      rw [hExisting]
      exact hYields
    | integer =>
      have hGives : TypeRef.Gives t d.type .integer (.regular "integer") := by
        rw [hType]
        exact .integer
      obtain ⟨d', t', ds, hYields, hOutcome⟩ := VarDecl.typed_yields hExisting hGives
      refine ⟨d', t', ds, (getTable_yields t).bind_silent ?_, hOutcome⟩
      rw [hExisting]
      exact hYields

/-- A variable of the innermost scope. -/
theorem VarDecl.resolve_yields {t : SymbolTable} {scope : ScopeId} {rest : List ScopeId}
    (hStack : t.stack = scope :: rest) (d : VarDecl) :
    ∃ d' t' ds, Yields d.resolve t d' t' ds ∧ d.Outcome t scope d' t' ds := by
  obtain ⟨d', t', ds, hYields, hOutcome⟩ := d.resolveIn_yields scope t
  exact ⟨d', t', ds, (currentScope_yields hStack).bind_silent hYields, hOutcome⟩

end NameResolution
