import NameResolution.Proofs.Analysis.Discipline
import NameResolution.Proofs.Analysis.Trace

/-!
# Reached tables — every symbol table that an analysis passes

A run goes from step to step, and most steps change the table once. Only the declaration of a struct
changes it several times: a scope for the fields is made, the name is declared, then each field.

* `Reached` — the table between two steps, or inside the declaration of a struct.
* `fieldTables` — the scopes that the structs declared so far have for their fields.
* `WellNested` — formals stand at the depth of functions; all programs are so.
* `Reached.sound` — the open scopes are distinct at all times.
-/

namespace NameResolution

open Analysis SymbolTable

variable {t t' u : SymbolTable} {part part' : Part} {parts parts' rest : List Part}
  {errors : List Diagnostic}

/-! ## Reached tables -/

/-- The tables inside the declaration of a struct: when the scope of its fields has been made, when
its name has been declared, and after each of its fields. -/
inductive StructDecl.Passes (t : SymbolTable) (s : StructDecl) : SymbolTable → Prop where
  | made : Passes t s t.newScope.2
  | filled {k : ScopeId} {id' : Ident} {t₁ t₂ : SymbolTable} {done done' rest : List VarDecl}
    {errors₁ errors₂ : List Diagnostic} (hStack : t.stack = [k])
    (hName : Declares k s.id (.structDecl t.store.length) t.newScope.2 id' t₁ errors₁)
    (hSplit : s.fields = done ++ rest)
    (hFields : Outcomes t.store.length t₁ done t₂ done' errors₂) : Passes t s t₂

/-- From the table `t`, the walk over `parts` reaches the table `u` when it is through with `done`,
or inside a struct that is the last of them. -/
inductive Reached (t : SymbolTable) (parts : List Part) : List Part → SymbolTable → Prop where
  | between {done rest done' : List Part} {u : SymbolTable} {errors : List Diagnostic}
    (hSplit : parts = done ++ rest) (h : Run t done u done' errors) : Reached t parts done u
  | inside {done rest done' : List Part} {s : StructDecl} {u v : SymbolTable}
    {errors : List Diagnostic} (hSplit : parts = done ++ .struct s :: rest)
    (h : Run t done u done' errors) (hPasses : s.Passes u v) :
    Reached t parts (done ++ [.struct s]) v

namespace Part

/-- The next free number after a step. -/
def numberAfter (next : ScopeId) : Part → ScopeId
  | opens | struct _ => next + 1
  | closes | func _ _ _ | formal _ | var _ | again _ | use _ => next

/-- The scope that a step makes for the fields of a struct. -/
def fieldTables (next : ScopeId) : Part → List ScopeId
  | struct _ => [next]
  | opens | closes | func _ _ _ | formal _ | var _ | again _ | use _ => []

end Part

/-- The scopes that some steps make for the fields of structs, when `next` is the next free
number. -/
def fieldTables (next : ScopeId) : List Part → List ScopeId
  | [] => []
  | part :: parts => part.fieldTables next ++ fieldTables (part.numberAfter next) parts

/-- A variable makes no scope. -/
theorem VarDecl.Outcome.length_eq {k : ScopeId} {d d' : VarDecl}
    (h : d.Outcome t k d' t' errors) : t'.store.length = t.store.length := by
  cases h with
  | formal | void | noStruct => rfl
  | typed _ _ hDeclares => exact hDeclares.length_eq

/-- The fields of a struct make no scope. -/
theorem Outcomes.length_eq {k : ScopeId} {ds ds' : List VarDecl}
    (h : Outcomes k t ds t' ds' errors) : t'.store.length = t.store.length := by
  induction h with
  | nil t => rfl
  | cons hHead _ ih => rw [ih, hHead.length_eq]

/-- A part makes as many scopes as its kind says. -/
theorem Part.Does.length_eq (h : part.Does t t' part' errors) :
    t'.store.length = part.numberAfter t.store.length := by
  cases h with
  | opens => exact push_length t
  | closes | use | repeated => rfl
  | func _ h | formal _ h => exact h.length_eq
  | var _ h | again _ _ h => exact h.length_eq
  | struct _ hName hFields => rw [hFields.length_eq, hName.length_eq, newScope_length, numberAfter]

/-- The field tables of two lists of parts, the second counted from the table in between. -/
theorem Run.fieldTables_append (h : Run t parts t' parts' errors) (rest : List Part) :
    fieldTables t.store.length (parts ++ rest) =
      fieldTables t.store.length parts ++ fieldTables t'.store.length rest := by
  induction h with
  | nil t => rfl
  | cons hStep _ ih =>
    rw [List.cons_append, fieldTables, fieldTables, List.append_assoc, ← hStep.length_eq, ih]

/-! ## Depths -/

namespace Part

/-- How many scopes are open after a step. -/
def depthAfter (depth : Nat) : Part → Nat
  | opens => depth + 1
  | closes => depth - 1
  | func _ _ _ | formal _ | var _ | again _ | struct _ | use _ => depth

/-- A formal is declared in the scope of a function, which is the second one. -/
def FitsAt (depth : Nat) : Part → Prop
  | formal _ => depth = 2
  | opens | closes | func _ _ _ | var _ | again _ | struct _ | use _ => True

end Part

/-- A part changes the depth of the stack as its kind says. -/
theorem Part.Does.depth_eq (h : part.Does t t' part' errors) :
    t'.stack.length = part.depthAfter t.stack.length := by
  cases h with
  | opens | repeated | use => rfl
  | closes hStack => rw [hStack]; rfl
  | func _ h | formal _ h => rw [h.stack_eq]; rfl
  | var _ h | again _ _ h => rw [h.stack_eq]; rfl
  | struct _ hName hFields => rw [hFields.stack_eq, hName.stack_eq]; rfl

/-- From this depth on, all formals are where they belong. -/
def WellNested (depth : Nat) : List Part → Prop
  | [] => True
  | part :: parts => part.FitsAt depth ∧ WellNested (part.depthAfter depth) parts

/-- Parts that close what they open, and hold no formals: they can stand in front of others inside
any scope. -/
def Balanced (parts : List Part) : Prop :=
  ∀ depth rest, WellNested (depth + 1) rest → WellNested (depth + 1) (parts ++ rest)

namespace Balanced

theorem nil : Balanced [] := fun _ _ h => h

/-- Balanced parts in a row are balanced. -/
theorem append (h : Balanced parts) (h' : Balanced rest) : Balanced (parts ++ rest) := by
  intro depth more hMore
  rw [List.append_assoc]
  exact h depth _ (h' depth more hMore)

/-- Steps that open and close nothing. -/
theorem flat (h : ∀ part ∈ parts, ∀ depth, part.FitsAt depth ∧ part.depthAfter depth = depth) :
    Balanced parts := by
  induction parts with
  | nil => exact nil
  | cons part parts ih =>
    obtain ⟨hFirst, hRest⟩ := List.forall_mem_cons.mp h
    intro depth rest hAfter
    refine ⟨(hFirst _).1, ?_⟩
    rw [(hFirst _).2]
    exact ih hRest depth rest hAfter

/-- Balanced parts in a scope of their own are balanced. -/
theorem nested (h : Balanced parts) : Balanced (nested parts) := by
  intro depth rest hRest
  show WellNested (depth + 1) (.opens :: ((parts ++ [.closes]) ++ rest))
  refine ⟨trivial, ?_⟩
  rw [List.append_assoc]
  exact h (depth + 1) _ ⟨trivial, hRest⟩

/-- Uses are balanced, as they open nothing. -/
theorem uses (spots : List Spot) : Balanced (usesOf spots) := by
  refine flat fun part hPart depth => ?_
  obtain ⟨spot, -, rfl⟩ := List.mem_map.mp hPart
  exact ⟨trivial, rfl⟩

theorem use (spot : Spot) : Balanced [.use spot] := uses [spot]

/-- Variables are balanced. -/
theorem vars (ds : List VarDecl) : Balanced (ds.map .var) := by
  refine flat fun part hPart depth => ?_
  obtain ⟨d, -, rfl⟩ := List.mem_map.mp hPart
  exact ⟨trivial, rfl⟩

/-- The variables of a function body are balanced. -/
theorem locals (seen : List String) (ds : List VarDecl) : Balanced (localParts seen ds) := by
  induction ds generalizing seen with
  | nil => exact nil
  | cons d ds ih =>
    rw [localParts]
    intro depth rest hRest
    have hTail := ih (d.id.name :: seen) depth rest hRest
    split <;> exact ⟨trivial, hTail⟩

end Balanced

mutual

/-- A statement closes what it opens. -/
theorem Stmt.parts_balanced : (s : Stmt) → Balanced s.parts
  | .assign target value => (Balanced.use (.location target)).append (.uses value.spots)
  | .increment target | .decrement target | .read target => .use (.location target)
  -- what a block opens around its parts is closed behind them
  | .ifThen cond ⟨decls, stmts⟩ | .loop cond ⟨decls, stmts⟩ =>
    (Balanced.uses cond.spots).append
      (((Balanced.vars decls).append (Stmt.partsAll_balanced stmts)).nested)
  | .ifElse cond ⟨decls, stmts⟩ ⟨elseDecls, elseStmts⟩ =>
    (Balanced.uses cond.spots).append
      ((((Balanced.vars decls).append (Stmt.partsAll_balanced stmts)).nested).append
        (((Balanced.vars elseDecls).append (Stmt.partsAll_balanced elseStmts)).nested))
  | .write value => .uses value.spots
  | .call callee args => (Balanced.use (.callee callee)).append (.uses (Expr.spotsAll args))
  | .ret none => .nil
  | .ret (some value) => .uses value.spots

theorem Stmt.partsAll_balanced : (ss : List Stmt) → Balanced (Stmt.partsAll ss)
  | [] => .nil
  | s :: ss => (Stmt.parts_balanced s).append (Stmt.partsAll_balanced ss)

end

/-- Formals stand inside a function. -/
theorem formals_wellNested (fs : List Formal) (h : WellNested 2 rest) :
    WellNested 2 (fs.map .formal ++ rest) := by
  induction fs with
  | nil => exact h
  | cons f fs ih => exact ⟨rfl, ih⟩

/-- A declaration stands in the global scope and returns to it. -/
theorem Decl.parts_wellNested (d : Decl) (h : WellNested 1 rest) :
    WellNested 1 (d.parts ++ rest) := by
  cases d with
  | var d | struct s => exact ⟨trivial, h⟩
  | func f =>
    have hBody := (Balanced.locals [] f.body.decls).append (Stmt.partsAll_balanced f.body.stmts)
    show WellNested 1 (.func _ _ _ :: .opens :: ((_ ++ _) ++ [.closes] ++ rest))
    refine ⟨trivial, trivial, ?_⟩
    rw [List.append_assoc, List.append_assoc]
    exact formals_wellNested f.formals (hBody 1 _ ⟨trivial, h⟩)

/-- In a program, formals stand in the second scope. -/
theorem Program.parts_wellNested (p : Program) : WellNested 1 p.parts := by
  rw [Program.parts]
  induction p.decls with
  | nil => trivial
  | cons d ds ih =>
    rw [List.flatMap_cons]
    exact d.parts_wellNested ih

/-! ## Scopes that are not open -/

/-- The fields of a struct touch its field table only. -/
theorem Outcomes.touches {k : ScopeId} {ds ds' : List VarDecl} (hk : k < t.store.length)
    (h : Outcomes k t ds t' ds' errors) : Touches k t t' := by
  induction h with
  | nil t => exact .refl k t
  | cons hHead _ ih =>
    exact (hHead.adds hk).toTouches.trans (ih (Nat.lt_of_lt_of_le hk (hHead.adds hk).length))

/-- A struct binds its name in the open scope and its fields in a new one. -/
theorem StructDecl.Passes.scope_closed {s : StructDecl} (h : s.Passes t u) (hSound : t.Sound)
    {j : ScopeId} (hj : j < t.store.length) (hClosed : j ∉ t.stack) : u.scope j = t.scope j := by
  cases h with
  | made => exact newScope_scope t j
  -- a struct makes one scope, for its fields, and binds its own name in the innermost one; a closed
  -- scope that was made before is neither of them
  | @filled k _ t₁ _ _ _ _ _ _ hStack hName _ hFields =>
    have hMem : k ∈ t.stack := hStack ▸ List.mem_cons_self
    have hLength : t.newScope.2.store.length = t.store.length + 1 := newScope_length t
    have hMade : j < t.newScope.2.store.length := hLength ▸ Nat.lt_succ_of_lt hj
    have hAdds := hName.adds (hLength ▸ Nat.lt_succ_of_lt (hSound.made k hMem))
    have hInside : t.store.length < t₁.store.length :=
      hName.length_eq ▸ hLength ▸ Nat.lt_succ_self _
    rw [(hFields.touches hInside).other j (hName.length_eq ▸ hMade) (Nat.ne_of_lt hj),
      hAdds.other j hMade (ne_of_mem_of_not_mem hMem hClosed).symm, newScope_scope]

/-- A part does not change a scope that is closed. -/
theorem Part.Does.scope_closed (h : part.Does t t' part' errors) (hSound : t.Sound)
    {j : ScopeId} (hj : j < t.store.length) (hClosed : j ∉ t.stack) : t'.scope j = t.scope j := by
  -- whatever is declared is declared in an open scope
  have hOpen : ∀ {k rest}, t.stack = k :: rest → k < t.store.length ∧ j ≠ k := fun hStack =>
    have hMem := hStack ▸ List.mem_cons_self
    ⟨hSound.made _ hMem, (ne_of_mem_of_not_mem hMem hClosed).symm⟩
  cases h with
  | opens => exact push_scope t j
  | closes | use | repeated => rfl
  | func hStack h | formal hStack h =>
    exact (h.adds (hOpen hStack).1).other j hj (hOpen hStack).2
  | var hStack h | again hStack _ h =>
    exact (h.adds (hOpen hStack).1).other j hj (hOpen hStack).2
  | struct hStack hName hFields =>
    exact (StructDecl.Passes.filled hStack hName (List.append_nil _).symm hFields).scope_closed
      hSound hj hClosed

/-! ## Soundness -/

/-- The tables inside the declaration of a struct are sound. -/
theorem StructDecl.Passes.sound {s : StructDecl} (h : s.Passes t u) (hSound : t.Sound) :
    u.Sound := by
  cases h with
  | made => exact hSound.of_stack rfl (by simp)
  | filled _ hName _ hFields =>
    refine hSound.of_stack (hFields.stack_eq.trans hName.stack_eq) ?_
    rw [hFields.length_eq, hName.length_eq, newScope_length]
    exact Nat.le_succ _

/-- A part keeps the table sound. -/
theorem Part.Does.sound (h : part.Does t t' part' errors) (hSound : t.Sound) : t'.Sound := by
  cases h with
  | opens => exact hSound.push
  -- one scope less is open, and those that are left were open before
  | @closes inner k rest hStack =>
    obtain ⟨-, hNodup, hMade⟩ := hSound
    rw [hStack] at hNodup hMade
    exact ⟨List.cons_ne_nil _ _, (List.nodup_cons.mp hNodup).2,
      fun j hj => hMade j (List.mem_cons_of_mem _ hj)⟩
  | func _ h | formal _ h => exact hSound.of_stack h.stack_eq (Nat.le_of_eq h.length_eq.symm)
  | var _ h | again _ _ h => exact hSound.of_stack h.stack_eq (Nat.le_of_eq h.length_eq.symm)
  | use | repeated => exact hSound
  -- the fields are all the parts of a struct, so it passes its last table here
  | struct hStack hName hFields =>
    exact (StructDecl.Passes.filled hStack hName (List.append_nil _).symm hFields).sound hSound

/-- A run keeps the table sound. -/
theorem Run.sound (h : Run t parts t' parts' errors) (hSound : t.Sound) : t'.Sound := by
  induction h with
  | nil t => exact hSound
  | cons hStep _ ih => exact ih (hStep.sound hSound)

/-- Every table that is reached has distinct scopes open. -/
theorem Reached.sound {done : List Part} (h : Reached t parts done u) (hSound : t.Sound) :
    u.Sound := by
  cases h with
  | between _ h => exact h.sound hSound
  | inside _ h hPasses => exact hPasses.sound (h.sound hSound)

end NameResolution
