import NameResolution.Tree.Idents

/-!
# Renaming — a tree with other names in its two namespaces

The names of fields are declared in structs and stand right of a colon. All other names are looked
up in scopes, the names of struct types among them. A renaming of a program has a map for each of
these namespaces, and leaves positions and symbols as they are.

* `Program.occurrences` — every identifier with its namespace, in the order of the text.
* `Program.occurrences_id` — no identifier is left out.
* `Program.rename` — the program with other names.
* `Program.idents_rename` — the identifiers of a renamed program.
-/

namespace NameResolution

/-- The namespaces of a program. -/
inductive NameKind where
  | lexical
  | field
deriving DecidableEq, Repr

/-- An identifier of a tree with its namespace. -/
structure Occurrence where
  kind : NameKind
  id : Ident
deriving DecidableEq, Repr

/-! ## Identifiers with their namespaces -/

/-- Identifiers that are looked up in scopes. -/
def lexicalOccurrences (ids : List Ident) : List Occurrence :=
  ids.map fun id => ⟨.lexical, id⟩

/-- The name in front is looked up in the scopes, the others in field tables. -/
def Loc.occurrences : Loc → List Occurrence
  | var id => [⟨.lexical, id⟩]
  | field left id => left.occurrences ++ [⟨.field, id⟩]

mutual

/-- The occurrences of an expression, in the order of the text. -/
def Expr.occurrences : Expr → List Occurrence
  | .trueLit _ | .falseLit _ | .intLit _ _ | .strLit _ _ => []
  | .loc location => location.occurrences
  | .assign target value => target.occurrences ++ value.occurrences
  | .call callee args => ⟨.lexical, callee⟩ :: Expr.occurrencesAll args
  | .unary _ operand => operand.occurrences
  | .binary _ left right => left.occurrences ++ right.occurrences

def Expr.occurrencesAll : List Expr → List Occurrence
  | [] => []
  | e :: es => e.occurrences ++ Expr.occurrencesAll es

end

/-- The identifiers of a variable or of a field; the name of its type is never that of a field. -/
def VarDecl.occurrences (kind : NameKind) (d : VarDecl) : List Occurrence :=
  lexicalOccurrences d.type.idents ++ [⟨kind, d.id⟩]

mutual

/-- The occurrences of a statement, in the order of the text. -/
def Stmt.occurrences : Stmt → List Occurrence
  | .assign target value => target.occurrences ++ value.occurrences
  | .increment target | .decrement target | .read target => target.occurrences
  | .ifThen cond ⟨decls, stmts⟩ =>
    -- variables of a block are lexical names, whatever their types are
    cond.occurrences ++ decls.flatMap (VarDecl.occurrences .lexical) ++ Stmt.occurrencesAll stmts
  | .ifElse cond ⟨decls, stmts⟩ ⟨elseDecls, elseStmts⟩ =>
    cond.occurrences ++ decls.flatMap (VarDecl.occurrences .lexical) ++
      Stmt.occurrencesAll stmts ++ elseDecls.flatMap (VarDecl.occurrences .lexical) ++
      Stmt.occurrencesAll elseStmts
  | .loop cond ⟨decls, stmts⟩ =>
    cond.occurrences ++ decls.flatMap (VarDecl.occurrences .lexical) ++ Stmt.occurrencesAll stmts
  | .write value => value.occurrences
  | .call callee args => ⟨.lexical, callee⟩ :: Expr.occurrencesAll args
  | .ret none => []
  | .ret (some value) => value.occurrences

def Stmt.occurrencesAll : List Stmt → List Occurrence
  | [] => []
  | s :: ss => s.occurrences ++ Stmt.occurrencesAll ss

end

/-- The occurrences of a block: its declarations, then its statements. -/
def Block.occurrences (b : Block Stmt) : List Occurrence :=
  b.decls.flatMap (VarDecl.occurrences .lexical) ++ Stmt.occurrencesAll b.stmts

/-- A formal is a name of the function's scope. -/
def Formal.occurrences (f : Formal) : List Occurrence :=
  lexicalOccurrences f.idents

/-- The occurrences of a function: its result, its name, its formals and its body. -/
def FuncDecl.occurrences (f : FuncDecl) : List Occurrence :=
  lexicalOccurrences (f.result.idents ++ [f.id]) ++ f.formals.flatMap Formal.occurrences ++
    f.body.occurrences

/-- The name of a struct is lexical, and its fields are names of the field table. -/
def StructDecl.occurrences (s : StructDecl) : List Occurrence :=
  ⟨.lexical, s.id⟩ :: s.fields.flatMap (VarDecl.occurrences .field)

/-- The occurrences of a declaration of the program. -/
def Decl.occurrences : Decl → List Occurrence
  | var decl => decl.occurrences .lexical
  | func decl => decl.occurrences
  | struct decl => decl.occurrences

/-- Every identifier of a program, with its namespace. -/
def Program.occurrences (p : Program) : List Occurrence :=
  p.decls.flatMap Decl.occurrences

/-- The names that a program has in a namespace. -/
def Program.names (p : Program) (kind : NameKind) : List String :=
  (p.occurrences.filter fun o => o.kind = kind).map fun o => o.id.name

/-! ## No identifier is left out -/

/-- If the occurrences of each item are its identifiers, so it is for the list. -/
theorem flatMap_occurrences_id {α : Type} {idents : α → List Ident}
    {occurrences : α → List Occurrence} (h : ∀ x, (occurrences x).map Occurrence.id = idents x)
    (xs : List α) : (xs.flatMap occurrences).map Occurrence.id = xs.flatMap idents := by
  simp only [List.map_flatMap, h]

/-- Marking identifiers as lexical keeps them. -/
theorem lexicalOccurrences_id (ids : List Ident) :
    (lexicalOccurrences ids).map Occurrence.id = ids := by
  rw [lexicalOccurrences, List.map_map]
  exact List.map_id ids

/-- The occurrences of a location are its identifiers, in order. -/
theorem Loc.occurrences_id (l : Loc) : l.occurrences.map Occurrence.id = l.idents := by
  induction l with
  | var id => rfl
  | field left id ih =>
    rw [Loc.occurrences, Loc.idents, List.map_append, ih]
    rfl

mutual

/-- The occurrences of an expression are its identifiers, in order. -/
theorem Expr.occurrences_id : (e : Expr) → e.occurrences.map Occurrence.id = e.idents
  | .trueLit _ | .falseLit _ | .intLit _ _ | .strLit _ _ => rfl
  | .loc location => location.occurrences_id
  | .assign target value => by
    rw [Expr.occurrences, Expr.idents, List.map_append, Loc.occurrences_id,
      Expr.occurrences_id value]
  | .call callee args => by
    rw [Expr.occurrences, Expr.idents, List.map_cons, Expr.occurrencesAll_id args]
  | .unary op operand => by rw [Expr.occurrences, Expr.idents, Expr.occurrences_id operand]
  | .binary op left right => by
    rw [Expr.occurrences, Expr.idents, List.map_append, Expr.occurrences_id left,
      Expr.occurrences_id right]

theorem Expr.occurrencesAll_id :
    (es : List Expr) → (Expr.occurrencesAll es).map Occurrence.id = Expr.identsAll es
  | [] => rfl
  | e :: es => by
    rw [Expr.occurrencesAll, Expr.identsAll, List.map_append, Expr.occurrences_id e,
      Expr.occurrencesAll_id es]

end

/-- The occurrences of a variable are its identifiers, in order. -/
theorem VarDecl.occurrences_id (kind : NameKind) (d : VarDecl) :
    (d.occurrences kind).map Occurrence.id = d.idents := by
  rw [VarDecl.occurrences, List.map_append, lexicalOccurrences_id]
  rfl

/-- The occurrences of some variables are their identifiers, in order. -/
theorem varDecls_occurrences_id (kind : NameKind) (ds : List VarDecl) :
    (ds.flatMap (VarDecl.occurrences kind)).map Occurrence.id = ds.flatMap VarDecl.idents :=
  flatMap_occurrences_id (VarDecl.occurrences_id kind) ds

mutual

/-- The occurrences of a statement are its identifiers, in order. -/
theorem Stmt.occurrences_id : (s : Stmt) → s.occurrences.map Occurrence.id = s.idents
  | .assign target value => by
    rw [Stmt.occurrences, Stmt.idents, List.map_append, Loc.occurrences_id, Expr.occurrences_id]
  | .increment target | .decrement target | .read target => target.occurrences_id
  | .write value | .ret (some value) => value.occurrences_id
  | .ret none => rfl
  | .call callee args => by
    rw [Stmt.occurrences, Stmt.idents, List.map_cons, Expr.occurrencesAll_id]
  | .ifThen cond ⟨decls, stmts⟩ | .loop cond ⟨decls, stmts⟩ => by
    simp only [Stmt.idents, Stmt.occurrences, List.map_append, Expr.occurrences_id,
      varDecls_occurrences_id, Stmt.occurrencesAll_id stmts]
  | .ifElse cond ⟨decls, stmts⟩ ⟨elseDecls, elseStmts⟩ => by
    simp only [Stmt.idents, Stmt.occurrences, List.map_append, Expr.occurrences_id,
      varDecls_occurrences_id, Stmt.occurrencesAll_id stmts, Stmt.occurrencesAll_id elseStmts]

theorem Stmt.occurrencesAll_id :
    (ss : List Stmt) → (Stmt.occurrencesAll ss).map Occurrence.id = Stmt.identsAll ss
  | [] => rfl
  | s :: ss => by
    rw [Stmt.occurrencesAll, Stmt.identsAll, List.map_append, Stmt.occurrences_id s,
      Stmt.occurrencesAll_id ss]

end

/-- The occurrences of a formal are its identifiers, in order. -/
theorem Formal.occurrences_id (f : Formal) : f.occurrences.map Occurrence.id = f.idents :=
  lexicalOccurrences_id f.idents

/-- The occurrences of a declaration are its identifiers, in order. -/
theorem Decl.occurrences_id (d : Decl) : d.occurrences.map Occurrence.id = d.idents := by
  cases d with
  | var d => exact d.occurrences_id .lexical
  | func f =>
    have hFormals := flatMap_occurrences_id Formal.occurrences_id f.formals
    simp only [Decl.occurrences, Decl.idents, FuncDecl.occurrences, FuncDecl.idents,
      Block.occurrences, Block.idents, List.map_append, lexicalOccurrences_id, hFormals,
      varDecls_occurrences_id, Stmt.occurrencesAll_id]
  | struct s =>
    rw [Decl.occurrences, Decl.idents, StructDecl.occurrences, StructDecl.idents, List.map_cons,
      varDecls_occurrences_id]

/-- Every identifier of a program is in one of the namespaces. -/
theorem Program.occurrences_id (p : Program) : p.occurrences.map Occurrence.id = p.idents :=
  flatMap_occurrences_id Decl.occurrences_id p.decls

/-! ## Other names -/

/-- The same occurrence of another name. -/
def Ident.rename (σ : String → String) (id : Ident) : Ident :=
  { id with name := σ id.name }

/-- The identifier with its name replaced by the map of its namespace. -/
def Occurrence.rename (σ : NameKind → String → String) (o : Occurrence) : Ident :=
  o.id.rename (σ o.kind)

section

variable (σ : NameKind → String → String)

/-- The name of a struct type is looked up in the scopes. -/
def TypeRef.rename : TypeRef → TypeRef
  | boolean => boolean
  | integer => integer
  | void => void
  | struct id => struct (id.rename (σ .lexical))

/-- The variable is renamed as a lexical name, the others as fields. -/
def Loc.rename : Loc → Loc
  | var id => var (id.rename (σ .lexical))
  | field left id => field left.rename (id.rename (σ .field))

mutual

/-- Every identifier of the expression is renamed in its namespace. -/
def Expr.rename : Expr → Expr
  | .trueLit pos => .trueLit pos
  | .falseLit pos => .falseLit pos
  | .intLit pos value => .intLit pos value
  | .strLit pos literal => .strLit pos literal
  | .loc location => .loc (location.rename σ)
  | .assign target value => .assign (target.rename σ) value.rename
  | .call callee args => .call (callee.rename (σ .lexical)) (Expr.renameAll args)
  | .unary op operand => .unary op operand.rename
  | .binary op left right => .binary op left.rename right.rename

def Expr.renameAll : List Expr → List Expr
  | [] => []
  | e :: es => e.rename :: Expr.renameAll es

end

/-- A variable is renamed as a lexical name or as a field, its type as a lexical one. -/
def VarDecl.rename (kind : NameKind) (d : VarDecl) : VarDecl :=
  ⟨d.type.rename σ, d.id.rename (σ kind), d.isField⟩

mutual

/-- Every identifier of the statement is renamed in its namespace. -/
def Stmt.rename : Stmt → Stmt
  | .assign target value => .assign (target.rename σ) (value.rename σ)
  | .increment target => .increment (target.rename σ)
  | .decrement target => .decrement (target.rename σ)
  | .ifThen cond ⟨decls, stmts⟩ =>
    .ifThen (cond.rename σ) ⟨decls.map (VarDecl.rename σ .lexical), Stmt.renameAll stmts⟩
  | .ifElse cond ⟨decls, stmts⟩ ⟨elseDecls, elseStmts⟩ =>
    .ifElse (cond.rename σ) ⟨decls.map (VarDecl.rename σ .lexical), Stmt.renameAll stmts⟩
      ⟨elseDecls.map (VarDecl.rename σ .lexical), Stmt.renameAll elseStmts⟩
  | .loop cond ⟨decls, stmts⟩ =>
    .loop (cond.rename σ) ⟨decls.map (VarDecl.rename σ .lexical), Stmt.renameAll stmts⟩
  | .read target => .read (target.rename σ)
  | .write value => .write (value.rename σ)
  | .call callee args => .call (callee.rename (σ .lexical)) (Expr.renameAll σ args)
  | .ret none => .ret none
  | .ret (some value) => .ret (some (value.rename σ))

def Stmt.renameAll : List Stmt → List Stmt
  | [] => []
  | s :: ss => s.rename :: Stmt.renameAll ss

end

/-- Every declaration and every statement of the block is renamed. -/
def Block.rename (b : Block Stmt) : Block Stmt :=
  ⟨b.decls.map (VarDecl.rename σ .lexical), Stmt.renameAll σ b.stmts⟩

/-- The type and the name of a formal are lexical. -/
def Formal.rename (f : Formal) : Formal :=
  ⟨f.type.rename σ, f.id.rename (σ .lexical)⟩

/-- Every part of the function is renamed. -/
def FuncDecl.rename (f : FuncDecl) : FuncDecl :=
  ⟨f.result.rename σ, f.id.rename (σ .lexical), f.formals.map (Formal.rename σ),
    f.body.rename σ⟩

/-- The name of the struct is lexical, and its fields are fields. -/
def StructDecl.rename (s : StructDecl) : StructDecl :=
  ⟨s.id.rename (σ .lexical), s.fields.map (VarDecl.rename σ .field)⟩

/-- Every part of the declaration is renamed. -/
def Decl.rename : Decl → Decl
  | var decl => var (decl.rename σ .lexical)
  | func decl => func (decl.rename σ)
  | struct decl => struct (decl.rename σ)

/-- The program with every name replaced by the map of its namespace. -/
def Program.rename (p : Program) : Program :=
  ⟨p.decls.map (Decl.rename σ)⟩

/-! ## Identifiers of a renamed tree -/

variable {σ}

theorem flatMap_idents_rename {α : Type} {rename : α → α} {idents : α → List Ident}
    {occurrences : α → List Occurrence}
    (h : ∀ x, idents (rename x) = (occurrences x).map (Occurrence.rename σ)) (xs : List α) :
    (xs.map rename).flatMap idents = (xs.flatMap occurrences).map (Occurrence.rename σ) := by
  induction xs with
  | nil => rfl
  | cons x xs ih => rw [List.map_cons, List.flatMap_cons, h, ih, List.flatMap_cons, List.map_append]

theorem TypeRef.idents_rename (type : TypeRef) :
    (type.rename σ).idents = (lexicalOccurrences type.idents).map (Occurrence.rename σ) := by
  cases type <;> rfl

theorem Loc.idents_rename (l : Loc) :
    (l.rename σ).idents = l.occurrences.map (Occurrence.rename σ) := by
  induction l with
  | var id => rfl
  | field left id ih =>
    rw [Loc.rename, Loc.idents, Loc.occurrences, ih, List.map_append]
    rfl

mutual

/-- Renaming an expression renames its occurrences. -/
theorem Expr.idents_rename :
    (e : Expr) → (e.rename σ).idents = e.occurrences.map (Occurrence.rename σ)
  | .trueLit _ | .falseLit _ | .intLit _ _ | .strLit _ _ => rfl
  | .loc location => by rw [Expr.rename, Expr.idents, Expr.occurrences, Loc.idents_rename]
  | .assign target value => by
    rw [Expr.rename, Expr.idents, Expr.occurrences, List.map_append, Loc.idents_rename,
      Expr.idents_rename value]
  | .call callee args => by
    rw [Expr.rename, Expr.idents, Expr.occurrences, List.map_cons, Expr.identsAll_rename args]
    rfl
  | .unary op operand => by
    rw [Expr.rename, Expr.idents, Expr.occurrences, Expr.idents_rename operand]
  | .binary op left right => by
    rw [Expr.rename, Expr.idents, Expr.occurrences, List.map_append, Expr.idents_rename left,
      Expr.idents_rename right]

theorem Expr.identsAll_rename : (es : List Expr) →
    Expr.identsAll (Expr.renameAll σ es) =
      (Expr.occurrencesAll es).map (Occurrence.rename σ)
  | [] => rfl
  | e :: es => by
    rw [Expr.renameAll, Expr.identsAll, Expr.occurrencesAll, List.map_append,
      Expr.idents_rename e, Expr.identsAll_rename es]

end

theorem VarDecl.idents_rename (kind : NameKind) (d : VarDecl) :
    (d.rename σ kind).idents = (d.occurrences kind).map (Occurrence.rename σ) := by
  rw [VarDecl.idents, VarDecl.occurrences, List.map_append, ← TypeRef.idents_rename]
  rfl

theorem varDecls_idents_rename (kind : NameKind) (ds : List VarDecl) :
    (ds.map (VarDecl.rename σ kind)).flatMap VarDecl.idents =
      (ds.flatMap (VarDecl.occurrences kind)).map (Occurrence.rename σ) :=
  flatMap_idents_rename (VarDecl.idents_rename kind) ds

mutual

/-- Renaming a statement renames its occurrences. -/
theorem Stmt.idents_rename :
    (s : Stmt) → (s.rename σ).idents = s.occurrences.map (Occurrence.rename σ)
  | .assign target value => by
    rw [Stmt.rename, Stmt.idents, Stmt.occurrences, List.map_append, Loc.idents_rename,
      Expr.idents_rename]
  | .increment target | .decrement target | .read target => by
    rw [Stmt.rename, Stmt.idents, Stmt.occurrences, Loc.idents_rename]
  | .write value | .ret (some value) => by
    rw [Stmt.rename, Stmt.idents, Stmt.occurrences, Expr.idents_rename]
  | .ret none => rfl
  | .call callee args => by
    rw [Stmt.rename, Stmt.idents, Stmt.occurrences, List.map_cons, Expr.identsAll_rename]
    rfl
  | .ifThen cond ⟨decls, stmts⟩ | .loop cond ⟨decls, stmts⟩ => by
    simp only [Stmt.rename, Stmt.idents, Stmt.occurrences, List.map_append, Expr.idents_rename,
      varDecls_idents_rename, Stmt.identsAll_rename stmts]
  | .ifElse cond ⟨decls, stmts⟩ ⟨elseDecls, elseStmts⟩ => by
    simp only [Stmt.rename, Stmt.idents, Stmt.occurrences, List.map_append, Expr.idents_rename,
      varDecls_idents_rename, Stmt.identsAll_rename stmts, Stmt.identsAll_rename elseStmts]

theorem Stmt.identsAll_rename : (ss : List Stmt) →
    Stmt.identsAll (Stmt.renameAll σ ss) =
      (Stmt.occurrencesAll ss).map (Occurrence.rename σ)
  | [] => rfl
  | s :: ss => by
    rw [Stmt.renameAll, Stmt.identsAll, Stmt.occurrencesAll, List.map_append,
      Stmt.idents_rename s, Stmt.identsAll_rename ss]

end

theorem Formal.idents_rename (f : Formal) :
    (f.rename σ).idents = f.occurrences.map (Occurrence.rename σ) := by
  obtain ⟨type, id⟩ := f
  cases type <;> rfl

theorem Decl.idents_rename (d : Decl) :
    (d.rename σ).idents = d.occurrences.map (Occurrence.rename σ) := by
  cases d with
  | var d => exact d.idents_rename .lexical
  | func f =>
    -- lists of formals are renamed one by one, which is said once and used inside
    have hFormals := flatMap_idents_rename Formal.idents_rename f.formals (σ := σ)
    simp only [Decl.rename, Decl.idents, Decl.occurrences, FuncDecl.rename, FuncDecl.idents,
      FuncDecl.occurrences, Block.rename, Block.idents, Block.occurrences, lexicalOccurrences,
      List.map_append, TypeRef.idents_rename, hFormals, varDecls_idents_rename,
      Stmt.identsAll_rename]
    rfl
  | struct s =>
    simp only [Decl.rename, Decl.idents, Decl.occurrences, StructDecl.rename, StructDecl.idents,
      StructDecl.occurrences, List.map_cons, varDecls_idents_rename]
    rfl

/-- The identifiers of a renamed program are those of the program, each renamed in its namespace. -/
theorem Program.idents_rename (p : Program) :
    (p.rename σ).idents = p.occurrences.map (Occurrence.rename σ) :=
  flatMap_idents_rename Decl.idents_rename p.decls

end

end NameResolution
