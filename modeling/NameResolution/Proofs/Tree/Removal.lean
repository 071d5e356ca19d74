import NameResolution.Proofs.Tree.Parts

/-!
# Removals — a tree without one of its variables

A variable or a field can be taken out of the tree that declares it, and nothing else of the tree
changes. A tree has one removal for each of them, in the order of the text.

* `Removal` — a declaration with what is left when it is gone.
* `Program.removals` — a program without each of its variables and fields.
* `Program.removals_removed` — no variable and no field is left out.
* `Program.removals_cut` — only the identifiers of the declaration go with it.
-/

namespace NameResolution

/-- A variable or a field, and what is left of the whole that declared it. -/
structure Removal (α : Type) where
  removed : VarDecl
  left : α
deriving Repr

variable {α β γ : Type}

/-- The same declaration, removed from something around the whole. -/
def Removal.map (make : α → β) (r : Removal α) : Removal β :=
  ⟨r.removed, make r.left⟩

/-- The removals from a whole that is made of two, in one of which the declaration is. -/
def eitherRemovals (make : α → β → γ) (x : α) (xs : List (Removal α)) (y : β)
    (ys : List (Removal β)) : List (Removal γ) :=
  xs.map (.map fun x' => make x' y) ++ ys.map (.map fun y' => make x y')

/-! ## Removals from each construct -/

/-- Declarations in a row without one of them. -/
def varRemovals : List VarDecl → List (Removal (List VarDecl))
  | [] => []
  | d :: ds => ⟨d, ds⟩ :: (varRemovals ds).map (.map (d :: ·))

/-- The removals from a block, given those from its statements. -/
def blockRemovals (decls : List VarDecl) (stmts : List Stmt) (inner : List (Removal (List Stmt))) :
    List (Removal (Block Stmt)) :=
  eitherRemovals Block.mk decls (varRemovals decls) stmts inner

mutual

/-- The removals inside the blocks of a statement. -/
def Stmt.removals : Stmt → List (Removal Stmt)
  | .assign _ _ | .increment _ | .decrement _ | .read _ | .write _ | .call _ _ | .ret _ => []
  | .ifThen cond ⟨decls, stmts⟩ =>
    (blockRemovals decls stmts (Stmt.removalsAll stmts)).map (.map (.ifThen cond))
  | .ifElse cond ⟨decls, stmts⟩ ⟨elseDecls, elseStmts⟩ =>
    eitherRemovals (.ifElse cond)
      ⟨decls, stmts⟩ (blockRemovals decls stmts (Stmt.removalsAll stmts))
      ⟨elseDecls, elseStmts⟩ (blockRemovals elseDecls elseStmts (Stmt.removalsAll elseStmts))
  | .loop cond ⟨decls, stmts⟩ =>
    (blockRemovals decls stmts (Stmt.removalsAll stmts)).map (.map (.loop cond))

def Stmt.removalsAll : List Stmt → List (Removal (List Stmt))
  | [] => []
  | s :: ss => eitherRemovals List.cons s s.removals ss (Stmt.removalsAll ss)

end

/-- The removals of a block: one of its declarations, or one inside a statement. -/
def Block.removals (b : Block Stmt) : List (Removal (Block Stmt)) :=
  blockRemovals b.decls b.stmts (Stmt.removalsAll b.stmts)

/-- The removals in the body of a function. -/
def FuncDecl.removals (f : FuncDecl) : List (Removal FuncDecl) :=
  f.body.removals.map (.map fun body => { f with body := body })

/-- The removals of the fields of a struct. -/
def StructDecl.removals (s : StructDecl) : List (Removal StructDecl) :=
  (varRemovals s.fields).map (.map fun fields => { s with fields := fields })

/-- The removals from the top level, where a variable is a declaration of its own. -/
def declRemovals : List Decl → List (Removal (List Decl))
  | [] => []
  | .var d :: ds => ⟨d, ds⟩ :: (declRemovals ds).map (.map (.var d :: ·))
  | .func f :: ds =>
    eitherRemovals (fun f' ds' => .func f' :: ds') f f.removals ds (declRemovals ds)
  | .struct s :: ds =>
    eitherRemovals (fun s' ds' => .struct s' :: ds') s s.removals ds (declRemovals ds)

/-- A program without each of its variables and fields. -/
def Program.removals (p : Program) : List (Removal Program) :=
  (declRemovals p.decls).map (.map Program.mk)

/-! ## What is removed -/

/-- Building more around the rest does not change what is removed. -/
theorem map_map_removed (make : α → β) (rs : List (Removal α)) :
    (rs.map (.map make)).map Removal.removed = rs.map Removal.removed :=
  List.map_map

/-- What the removals of a pair remove: the declarations of the left side, then of the right. -/
theorem eitherRemovals_removed (make : α → β → γ) (x : α) (xs : List (Removal α)) (y : β)
    (ys : List (Removal β)) :
    (eitherRemovals make x xs y ys).map Removal.removed =
      xs.map Removal.removed ++ ys.map Removal.removed := by
  rw [eitherRemovals, List.map_append, map_map_removed, map_map_removed]

/-- Each variable of a list is removed once, in order. -/
theorem varRemovals_removed (ds : List VarDecl) :
    (varRemovals ds).map Removal.removed = ds := by
  induction ds with
  | nil => rfl
  | cons d ds ih => rw [varRemovals, List.map_cons, map_map_removed, ih]

/-- The variables and fields among some parts. -/
def partVars (parts : List Part) : List VarDecl :=
  parts.flatMap Part.varDecls

theorem partVars_append (parts parts' : List Part) :
    partVars (parts ++ parts') = partVars parts ++ partVars parts' :=
  List.flatMap_append

/-- Uses declare no variables. -/
theorem partVars_uses (spots : List Spot) : partVars (usesOf spots) = [] := by
  rw [partVars, usesOf, List.flatMap_map]
  exact List.flatMap_eq_nil_iff.mpr fun _ _ => rfl

/-- Variables in a row declare themselves. -/
theorem partVars_vars (ds : List VarDecl) : partVars (ds.map .var) = ds := by
  rw [partVars, List.flatMap_map]
  exact List.flatMap_singleton' ds

/-- The variables of a function body are all there, repeated ones included. -/
theorem partVars_locals (seen : List String) (ds : List VarDecl) :
    partVars (localParts seen ds) = ds := by
  induction ds generalizing seen with
  | nil => rfl
  | cons d ds ih =>
    have hHead : ∀ part : Part, part = .again d ∨ part = .var d → part.varDecls = [d] := by
      rintro _ (rfl | rfl) <;> rfl
    rw [localParts, partVars, List.flatMap_cons, hHead _ (by split <;> simp), ← partVars, ih]
    rfl

/-- The scope around some parts adds no variables. -/
theorem partVars_nested (parts : List Part) : partVars (nested parts) = partVars parts := by
  show partVars (parts ++ [.closes]) = partVars parts
  rw [partVars_append]
  exact List.append_nil _

/-- A block has a removal for each of its variables, those of its statements included. -/
theorem blockRemovals_removed {stmts : List Stmt} {inner : List (Removal (List Stmt))}
    (h : inner.map Removal.removed = partVars (Stmt.partsAll stmts)) (decls : List VarDecl) :
    (blockRemovals decls stmts inner).map Removal.removed =
      partVars (nested (decls.map .var ++ Stmt.partsAll stmts)) := by
  rw [blockRemovals, eitherRemovals_removed, varRemovals_removed, h, partVars_nested,
    partVars_append, partVars_vars]

mutual

/-- A statement has a removal for each variable in it. -/
theorem Stmt.removals_removed : (s : Stmt) → s.removals.map Removal.removed = partVars s.parts
  | .assign target value => (partVars_uses (.location target :: value.spots)).symm
  | .increment _ | .decrement _ | .read _ | .ret none => rfl
  | .write value | .ret (some value) => (partVars_uses value.spots).symm
  | .call callee args => (partVars_uses (.callee callee :: Expr.spotsAll args)).symm
  | .ifThen cond ⟨decls, stmts⟩ => by
    -- a condition declares nothing, so the variables are those of the block
    rw [Stmt.removals, map_map_removed, Stmt.parts, partVars_append, partVars_uses,
      blockRemovals_removed (Stmt.removalsAll_removed stmts)]
    rfl
  | .ifElse cond ⟨decls, stmts⟩ ⟨elseDecls, elseStmts⟩ => by
    rw [Stmt.removals, eitherRemovals_removed, Stmt.parts, partVars_append, partVars_uses,
      partVars_append, blockRemovals_removed (Stmt.removalsAll_removed stmts),
      blockRemovals_removed (Stmt.removalsAll_removed elseStmts)]
    rfl
  | .loop cond ⟨decls, stmts⟩ => by
    rw [Stmt.removals, map_map_removed, Stmt.parts, partVars_append, partVars_uses,
      blockRemovals_removed (Stmt.removalsAll_removed stmts)]
    rfl

theorem Stmt.removalsAll_removed : (ss : List Stmt) →
    (Stmt.removalsAll ss).map Removal.removed = partVars (Stmt.partsAll ss)
  | [] => rfl
  | s :: ss => by
    rw [Stmt.removalsAll, eitherRemovals_removed, Stmt.removals_removed s,
      Stmt.removalsAll_removed ss, Stmt.partsAll, partVars_append]

end

/-- A function has a removal for each variable in it. -/
theorem FuncDecl.removals_removed (f : FuncDecl) :
    f.removals.map Removal.removed = partVars f.parts := by
  have hFormals : partVars (f.formals.map .formal) = [] := by
    rw [partVars, List.flatMap_map]
    exact List.flatMap_eq_nil_iff.mpr fun _ _ => rfl
  rw [FuncDecl.removals, map_map_removed, Block.removals, blockRemovals, eitherRemovals_removed,
    varRemovals_removed, Stmt.removalsAll_removed]
  show _ = partVars (nested _)
  rw [partVars_nested, partVars_append, hFormals, partVars_append, partVars_locals]
  rfl

/-- A list of declarations has a removal for each variable and each field in it. -/
theorem declRemovals_removed (ds : List Decl) :
    (declRemovals ds).map Removal.removed = partVars (ds.flatMap Decl.parts) := by
  induction ds with
  | nil => rfl
  | cons d ds ih =>
    -- the removals of the later declarations are those that the induction speaks of
    rw [List.flatMap_cons, partVars_append, ← ih]
    cases d with
    | var d =>
      rw [declRemovals, List.map_cons, map_map_removed]
      rfl
    | func f =>
      rw [declRemovals, eitherRemovals_removed, FuncDecl.removals_removed]
      rfl
    | struct s =>
      rw [declRemovals, eitherRemovals_removed, StructDecl.removals, map_map_removed,
        varRemovals_removed, Decl.parts, partVars, List.flatMap_singleton, Part.varDecls_struct]

/-- A program has a removal for each of its variables and fields. -/
theorem Program.removals_removed (p : Program) :
    p.removals.map Removal.removed = p.varDecls := by
  rw [Program.removals, map_map_removed, declRemovals_removed]
  rfl

/-! ## What is left -/

/-- The identifiers of the whole are those of the declaration among those that are left. -/
def Removal.Cuts (idents : α → List Ident) (whole : α) (r : Removal α) : Prop :=
  ∃ before after, idents whole = before ++ r.removed.idents ++ after ∧
    idents r.left = before ++ after

section Cuts

variable {idents : α → List Ident} {idents' : β → List Ident} {idents'' : γ → List Ident}
  {make : α → β} {join : α → β → γ} {x : α} {y : β}

/-- A removal inside a larger tree cuts the same identifiers out of it. -/
theorem map_cut {rs : List (Removal α)} (h : ∀ r ∈ rs, r.Cuts idents x) (front back : List Ident)
    (hMake : ∀ x, idents' (make x) = front ++ idents x ++ back) :
    ∀ r ∈ rs.map (Removal.map make), r.Cuts idents' (make x) := by
  intro _ hr
  obtain ⟨r, hMem, rfl⟩ := List.mem_map.mp hr
  obtain ⟨before, after, hWhole, hLeft⟩ := h r hMem
  refine ⟨front ++ before, after ++ back, ?_, ?_⟩
  · rw [hMake, hWhole]
    simp only [List.append_assoc, Removal.map]
  · rw [Removal.map, hMake, hLeft]
    simp only [List.append_assoc]

/-- A removal on either side of a pair cuts its identifiers out of the pair. -/
theorem eitherRemovals_cut {xs : List (Removal α)} {ys : List (Removal β)}
    (hLeft : ∀ r ∈ xs, r.Cuts idents x) (hRight : ∀ r ∈ ys, r.Cuts idents' y) (front : List Ident)
    (hJoin : ∀ x y, idents'' (join x y) = front ++ (idents x ++ idents' y)) :
    ∀ r ∈ eitherRemovals join x xs y ys, r.Cuts idents'' (join x y) := by
  intro r hr
  rcases List.mem_append.mp hr with hr | hr
  · refine map_cut hLeft front (idents' y) (fun x => ?_) r hr
    rw [hJoin, List.append_assoc]
  · refine map_cut hRight (front ++ idents x) [] (fun y => ?_) r hr
    rw [hJoin, List.append_nil, List.append_assoc]

end Cuts

/-- A removal of a variable cuts the identifiers of that variable out of the list. -/
theorem varRemovals_cut (ds : List VarDecl) :
    ∀ r ∈ varRemovals ds, r.Cuts (List.flatMap VarDecl.idents) ds := by
  induction ds with
  | nil => exact List.forall_mem_nil _
  | cons d ds ih =>
    rw [varRemovals, List.forall_mem_cons]
    refine ⟨⟨[], ds.flatMap VarDecl.idents, rfl, rfl⟩, ?_⟩
    exact map_cut ih d.idents [] fun ds => (List.append_nil _).symm

/-- The removals of a block cut identifiers out of the block if those inside its statements do. -/
theorem blockRemovals_cut {stmts : List Stmt} {inner : List (Removal (List Stmt))}
    (h : ∀ r ∈ inner, r.Cuts Stmt.identsAll stmts) (decls : List VarDecl) :
    ∀ r ∈ blockRemovals decls stmts inner, r.Cuts Block.idents ⟨decls, stmts⟩ :=
  eitherRemovals_cut (varRemovals_cut decls) h [] fun _ _ => rfl

mutual

/-- A removal in a statement cuts the identifiers of its declaration out of the statement. -/
theorem Stmt.removals_cut : (s : Stmt) → ∀ r ∈ s.removals, r.Cuts Stmt.idents s
  | .assign _ _ | .increment _ | .decrement _ | .read _ | .write _ | .call _ _ | .ret _ =>
    List.forall_mem_nil _
  | .ifThen cond ⟨decls, stmts⟩ => by
    -- in front of the block stand the names of the condition, behind it nothing
    refine map_cut (blockRemovals_cut (Stmt.removalsAll_cut stmts) decls) cond.idents [] ?_
    rintro ⟨decls, stmts⟩
    simp only [Stmt.idents, Block.idents, List.append_assoc, List.append_nil]
  | .ifElse cond ⟨decls, stmts⟩ ⟨elseDecls, elseStmts⟩ => by
    refine eitherRemovals_cut (blockRemovals_cut (Stmt.removalsAll_cut stmts) decls)
      (blockRemovals_cut (Stmt.removalsAll_cut elseStmts) elseDecls) cond.idents ?_
    rintro ⟨decls, stmts⟩ ⟨elseDecls, elseStmts⟩
    simp only [Stmt.idents, Block.idents, List.append_assoc]
  | .loop cond ⟨decls, stmts⟩ => by
    refine map_cut (blockRemovals_cut (Stmt.removalsAll_cut stmts) decls) cond.idents [] ?_
    rintro ⟨decls, stmts⟩
    simp only [Stmt.idents, Block.idents, List.append_assoc, List.append_nil]

theorem Stmt.removalsAll_cut : (ss : List Stmt) →
    ∀ r ∈ Stmt.removalsAll ss, r.Cuts Stmt.identsAll ss
  | [] => List.forall_mem_nil _
  | s :: ss => eitherRemovals_cut (Stmt.removals_cut s) (Stmt.removalsAll_cut ss) [] fun _ _ => rfl

end

/-- A removal in a function cuts the identifiers of its declaration out of the function. -/
theorem FuncDecl.removals_cut (f : FuncDecl) : ∀ r ∈ f.removals, r.Cuts FuncDecl.idents f := by
  have hBody : ∀ r ∈ f.body.removals, r.Cuts Block.idents f.body :=
    blockRemovals_cut (Stmt.removalsAll_cut f.body.stmts) f.body.decls
  exact map_cut hBody (f.result.idents ++ [f.id] ++ f.formals.flatMap Formal.idents) [] fun _ =>
    (List.append_nil _).symm

/-- A removal in a struct cuts the identifiers of the field out of the struct. -/
theorem StructDecl.removals_cut (s : StructDecl) :
    ∀ r ∈ s.removals, r.Cuts StructDecl.idents s :=
  map_cut (varRemovals_cut s.fields) [s.id] [] fun _ => (List.append_nil _).symm

/-- A removal in a program cuts the identifiers of its declaration out of the program. -/
theorem declRemovals_cut (ds : List Decl) :
    ∀ r ∈ declRemovals ds, r.Cuts (List.flatMap Decl.idents) ds := by
  induction ds with
  | nil => exact List.forall_mem_nil _
  | cons d ds ih =>
    cases d with
    | var d =>
      rw [declRemovals, List.forall_mem_cons]
      -- the whole declaration goes, so nothing stands in front of the cut
      refine ⟨⟨[], ds.flatMap Decl.idents, rfl, rfl⟩, ?_⟩
      exact map_cut ih d.idents [] fun ds => (List.append_nil _).symm
    | func f => exact eitherRemovals_cut f.removals_cut ih [] fun _ _ => rfl
    | struct s => exact eitherRemovals_cut s.removals_cut ih [] fun _ _ => rfl

/-- When a declaration is removed from a program, its own identifiers go and all others stay. -/
theorem Program.removals_cut (p : Program) : ∀ r ∈ p.removals, r.Cuts Program.idents p :=
  map_cut (declRemovals_cut p.decls) [] [] fun _ => (List.append_nil _).symm

end NameResolution
