import NameResolution.Tree.Idents

/-!
# Relabelling — a tree with other marks on its leaves

Two trees of one shape can differ in what their leaves carry: the positions of names and literals,
and the symbols on names. Such trees are compared after both have been relabelled the same way.

* `Program.relabel` — the tree with every position and every identifier replaced.
* `Program.bare` — the tree without symbols, as it is before an analysis.
* `Program.unplaced` — the tree without positions: all that a text says but where it says it.
* `Program.idents_relabel` — the identifiers of a relabelled tree.
-/

namespace NameResolution

variable (place : Position → Position) (name : Ident → Ident)

/-! ## Expressions -/

/-- Only the name of a struct type changes. -/
def TypeRef.relabel : TypeRef → TypeRef
  | boolean => boolean
  | integer => integer
  | void => void
  | struct id => struct (name id)

/-- Every identifier of the chain changes. -/
def Loc.relabel : Loc → Loc
  | var id => var (name id)
  | field left id => field left.relabel (name id)

mutual

/-- The literals move, and the identifiers change. -/
def Expr.relabel : Expr → Expr
  | .trueLit pos => .trueLit (place pos)
  | .falseLit pos => .falseLit (place pos)
  | .intLit pos value => .intLit (place pos) value
  | .strLit pos literal => .strLit (place pos) literal
  | .loc location => .loc (location.relabel name)
  | .assign target value => .assign (target.relabel name) value.relabel
  | .call callee args => .call (name callee) (Expr.relabelAll args)
  | .unary op operand => .unary op operand.relabel
  | .binary op left right => .binary op left.relabel right.relabel

def Expr.relabelAll : List Expr → List Expr
  | [] => []
  | e :: es => e.relabel :: Expr.relabelAll es

end

/-! ## Statements -/

def VarDecl.relabel (d : VarDecl) : VarDecl :=
  ⟨d.type.relabel name, name d.id, d.isField⟩

mutual

def Stmt.relabel : Stmt → Stmt
  | .assign target value => .assign (target.relabel name) (value.relabel place name)
  | .increment target => .increment (target.relabel name)
  | .decrement target => .decrement (target.relabel name)
  | .ifThen cond ⟨decls, stmts⟩ =>
    .ifThen (cond.relabel place name) ⟨decls.map (VarDecl.relabel name), Stmt.relabelAll stmts⟩
  | .ifElse cond ⟨decls, stmts⟩ ⟨elseDecls, elseStmts⟩ =>
    .ifElse (cond.relabel place name) ⟨decls.map (VarDecl.relabel name), Stmt.relabelAll stmts⟩
      ⟨elseDecls.map (VarDecl.relabel name), Stmt.relabelAll elseStmts⟩
  | .loop cond ⟨decls, stmts⟩ =>
    .loop (cond.relabel place name) ⟨decls.map (VarDecl.relabel name), Stmt.relabelAll stmts⟩
  | .read target => .read (target.relabel name)
  | .write value => .write (value.relabel place name)
  | .call callee args => .call (name callee) (Expr.relabelAll place name args)
  | .ret none => .ret none
  | .ret (some value) => .ret (some (value.relabel place name))

def Stmt.relabelAll : List Stmt → List Stmt
  | [] => []
  | s :: ss => s.relabel :: Stmt.relabelAll ss

end

/-! ## Declarations -/

def Block.relabel (b : Block Stmt) : Block Stmt :=
  ⟨b.decls.map (VarDecl.relabel name), Stmt.relabelAll place name b.stmts⟩

def Formal.relabel (f : Formal) : Formal :=
  ⟨f.type.relabel name, name f.id⟩

def FuncDecl.relabel (f : FuncDecl) : FuncDecl :=
  ⟨f.result.relabel name, name f.id, f.formals.map (Formal.relabel name),
    f.body.relabel place name⟩

def StructDecl.relabel (s : StructDecl) : StructDecl :=
  ⟨name s.id, s.fields.map (VarDecl.relabel name)⟩

def Decl.relabel : Decl → Decl
  | var decl => var (decl.relabel name)
  | func decl => func (decl.relabel place name)
  | struct decl => struct (decl.relabel name)

/-- The program with `place` applied to the positions of its literals and `name` to its
identifiers. -/
def Program.relabel (p : Program) : Program :=
  ⟨p.decls.map (Decl.relabel place name)⟩

/-! ## Trees without symbols, trees without positions -/

/-- The identifier without its symbol. -/
def Ident.bare (id : Ident) : Ident :=
  { id with symbol? := none }

/-- The identifier without its position. -/
def Ident.unplaced (id : Ident) : Ident :=
  { id with pos := ⟨0, 0⟩ }

/-- The position that all leaves of a tree without positions have. -/
def nowhere (_ : Position) : Position := ⟨0, 0⟩

/-- The type without its position. -/
def TypeRef.unplaced (type : TypeRef) : TypeRef := type.relabel Ident.unplaced

/-- The location without its positions. -/
def Loc.unplaced (loc : Loc) : Loc := loc.relabel Ident.unplaced

/-- The expression without its positions. -/
def Expr.unplaced (e : Expr) : Expr := e.relabel nowhere Ident.unplaced

/-- The variable without its positions. -/
def VarDecl.unplaced (d : VarDecl) : VarDecl := d.relabel Ident.unplaced

/-- The statement without its positions. -/
def Stmt.unplaced (s : Stmt) : Stmt := s.relabel nowhere Ident.unplaced

/-- The block without its positions. -/
def Block.unplaced (b : Block Stmt) : Block Stmt := b.relabel nowhere Ident.unplaced

/-- The formal without its positions. -/
def Formal.unplaced (f : Formal) : Formal := f.relabel Ident.unplaced

/-- The declaration without its positions. -/
def Decl.unplaced (d : Decl) : Decl := d.relabel nowhere Ident.unplaced

/-- The program without any symbol. -/
def Program.bare (p : Program) : Program :=
  p.relabel id Ident.bare

/-- The program without any position. -/
def Program.unplaced (p : Program) : Program :=
  p.relabel nowhere Ident.unplaced

/-! ## Blocks, and lists of statements and expressions -/

/-- A condition with one block, the block taken as a whole. -/
theorem Stmt.relabel_ifThen (cond : Expr) (body : Block Stmt) :
    (Stmt.ifThen cond body).relabel place name =
      .ifThen (cond.relabel place name) (body.relabel place name) := rfl

/-- A condition with two blocks, the blocks taken as a whole. -/
theorem Stmt.relabel_ifElse (cond : Expr) (body otherwise : Block Stmt) :
    (Stmt.ifElse cond body otherwise).relabel place name =
      .ifElse (cond.relabel place name) (body.relabel place name)
        (otherwise.relabel place name) := rfl

/-- A loop, its block taken as a whole. -/
theorem Stmt.relabel_loop (cond : Expr) (body : Block Stmt) :
    (Stmt.loop cond body).relabel place name =
      .loop (cond.relabel place name) (body.relabel place name) := rfl

/-- The identifiers of the condition, then those of the block. -/
theorem Stmt.idents_ifThen (cond : Expr) (body : Block Stmt) :
    (Stmt.ifThen cond body).idents = cond.idents ++ body.idents := by
  obtain ⟨decls, stmts⟩ := body
  rw [Stmt.idents, List.append_assoc, Block.idents]

/-- The identifiers of the condition, then those of both blocks. -/
theorem Stmt.idents_ifElse (cond : Expr) (body otherwise : Block Stmt) :
    (Stmt.ifElse cond body otherwise).idents =
      cond.idents ++ body.idents ++ otherwise.idents := by
  obtain ⟨decls, stmts⟩ := body
  obtain ⟨elseDecls, elseStmts⟩ := otherwise
  simp only [Stmt.idents, Block.idents, List.append_assoc]

/-- The identifiers of the condition, then those of the block. -/
theorem Stmt.idents_loop (cond : Expr) (body : Block Stmt) :
    (Stmt.loop cond body).idents = cond.idents ++ body.idents := by
  obtain ⟨decls, stmts⟩ := body
  rw [Stmt.idents, List.append_assoc, Block.idents]

theorem Expr.relabelAll_eq_map (es : List Expr) :
    Expr.relabelAll place name es = es.map (Expr.relabel place name) := by
  induction es with
  | nil => rw [Expr.relabelAll, List.map_nil]
  | cons e es ih => rw [Expr.relabelAll, ih, List.map_cons]

theorem Stmt.relabelAll_eq_map (ss : List Stmt) :
    Stmt.relabelAll place name ss = ss.map (Stmt.relabel place name) := by
  induction ss with
  | nil => rw [Stmt.relabelAll, List.map_nil]
  | cons s ss ih => rw [Stmt.relabelAll, ih, List.map_cons]

/-! ## Identifiers of a relabelled tree -/

theorem flatMap_idents_relabel {α : Type} {relabel : α → α} {idents : α → List Ident}
    (h : ∀ x, idents (relabel x) = (idents x).map name) (xs : List α) :
    (xs.map relabel).flatMap idents = (xs.flatMap idents).map name := by
  induction xs with
  | nil => rfl
  | cons x xs ih => rw [List.map_cons, List.flatMap_cons, h, ih, List.flatMap_cons, List.map_append]

theorem TypeRef.idents_relabel (type : TypeRef) :
    (type.relabel name).idents = type.idents.map name := by
  cases type <;> rfl

theorem Loc.idents_relabel (l : Loc) : (l.relabel name).idents = l.idents.map name := by
  induction l with
  | var id => rfl
  | field left id ih => rw [Loc.relabel, Loc.idents, Loc.idents, ih, List.map_append]; rfl

theorem VarDecl.idents_relabel (d : VarDecl) : (d.relabel name).idents = d.idents.map name := by
  rw [VarDecl.idents, VarDecl.idents, List.map_append, ← TypeRef.idents_relabel]
  rfl

theorem Formal.idents_relabel (f : Formal) : (f.relabel name).idents = f.idents.map name := by
  rw [Formal.idents, Formal.idents, List.map_append, ← TypeRef.idents_relabel]
  rfl

mutual

/-- Relabelling an expression renames its identifiers. -/
theorem Expr.idents_relabel : (e : Expr) → (e.relabel place name).idents = e.idents.map name
  | .trueLit _ | .falseLit _ | .intLit _ _ | .strLit _ _ => rfl
  | .loc location => by rw [Expr.relabel, Expr.idents, Expr.idents, Loc.idents_relabel]
  | .assign target value => by
    simp [Expr.relabel, Expr.idents, Loc.idents_relabel, Expr.idents_relabel value]
  | .call callee args => by simp [Expr.relabel, Expr.idents, Expr.identsAll_relabel args]
  | .unary op operand => by simp [Expr.relabel, Expr.idents, Expr.idents_relabel operand]
  | .binary op left right => by
    simp [Expr.relabel, Expr.idents, Expr.idents_relabel left, Expr.idents_relabel right]

theorem Expr.identsAll_relabel :
    (es : List Expr) → Expr.identsAll (Expr.relabelAll place name es) = (Expr.identsAll es).map name
  | [] => rfl
  | e :: es => by
    simp [Expr.relabelAll, Expr.identsAll, Expr.idents_relabel e, Expr.identsAll_relabel es]

end

mutual

/-- Relabelling a statement renames its identifiers. -/
theorem Stmt.idents_relabel : (s : Stmt) → (s.relabel place name).idents = s.idents.map name
  | .assign target value => by
    simp [Stmt.relabel, Stmt.idents, Loc.idents_relabel, Expr.idents_relabel]
  | .increment target | .decrement target | .read target => by
    rw [Stmt.relabel, Stmt.idents, Stmt.idents, Loc.idents_relabel]
  | .ifThen cond ⟨decls, stmts⟩ | .loop cond ⟨decls, stmts⟩ => by
    simp [Stmt.relabel, Stmt.idents, Expr.idents_relabel, Stmt.identsAll_relabel stmts,
      flatMap_idents_relabel name (VarDecl.idents_relabel name)]
  | .ifElse cond ⟨decls, stmts⟩ ⟨elseDecls, elseStmts⟩ => by
    simp [Stmt.relabel, Stmt.idents, Expr.idents_relabel, Stmt.identsAll_relabel stmts,
      Stmt.identsAll_relabel elseStmts, flatMap_idents_relabel name (VarDecl.idents_relabel name)]
  | .write value
  | .ret (some value) => by rw [Stmt.relabel, Stmt.idents, Stmt.idents, Expr.idents_relabel]
  | .call callee args => by simp [Stmt.relabel, Stmt.idents, Expr.identsAll_relabel]
  | .ret none => rfl

theorem Stmt.identsAll_relabel :
    (ss : List Stmt) → Stmt.identsAll (Stmt.relabelAll place name ss) = (Stmt.identsAll ss).map name
  | [] => rfl
  | s :: ss => by
    simp [Stmt.relabelAll, Stmt.identsAll, Stmt.idents_relabel s, Stmt.identsAll_relabel ss]

end

theorem Decl.idents_relabel (d : Decl) : (d.relabel place name).idents = d.idents.map name := by
  cases d with
  | var d => exact d.idents_relabel name
  | func f =>
    simp [Decl.relabel, Decl.idents, FuncDecl.relabel, FuncDecl.idents, Block.relabel,
      Block.idents, TypeRef.idents_relabel, Stmt.identsAll_relabel,
      flatMap_idents_relabel name (Formal.idents_relabel name),
      flatMap_idents_relabel name (VarDecl.idents_relabel name)]
  | struct s =>
    simp [Decl.relabel, Decl.idents, StructDecl.relabel, StructDecl.idents,
      flatMap_idents_relabel name (VarDecl.idents_relabel name)]

/-- Relabelling a program relabels each of its identifiers. -/
theorem Program.idents_relabel (p : Program) :
    (p.relabel place name).idents = p.idents.map name :=
  flatMap_idents_relabel name (Decl.idents_relabel place name) p.decls

/-! ## Parts of trees without positions -/

@[simp] theorem TypeRef.unplaced_struct (id : Ident) :
    (TypeRef.struct id).unplaced = .struct id.unplaced := rfl

@[simp] theorem Loc.unplaced_var (id : Ident) : (Loc.var id).unplaced = .var id.unplaced := rfl

@[simp] theorem Loc.unplaced_field (left : Loc) (id : Ident) :
    (Loc.field left id).unplaced = .field left.unplaced id.unplaced := rfl

@[simp] theorem Expr.unplaced_loc (loc : Loc) : (Expr.loc loc).unplaced = .loc loc.unplaced := rfl

@[simp] theorem Expr.unplaced_assign (target : Loc) (value : Expr) :
    (Expr.assign target value).unplaced = .assign target.unplaced value.unplaced := rfl

@[simp] theorem Expr.unplaced_call (callee : Ident) (args : List Expr) :
    (Expr.call callee args).unplaced = .call callee.unplaced (args.map Expr.unplaced) := by
  rw [Expr.unplaced, Expr.relabel, Expr.relabelAll_eq_map]
  rfl

@[simp] theorem Expr.unplaced_unary (op : String) (operand : Expr) :
    (Expr.unary op operand).unplaced = .unary op operand.unplaced := rfl

@[simp] theorem Expr.unplaced_binary (op : String) (left right : Expr) :
    (Expr.binary op left right).unplaced = .binary op left.unplaced right.unplaced := rfl

@[simp] theorem VarDecl.unplaced_mk (type : TypeRef) (id : Ident) (isField : Bool) :
    (VarDecl.mk type id isField).unplaced = ⟨type.unplaced, id.unplaced, isField⟩ := rfl

@[simp] theorem Block.unplaced_mk (decls : List VarDecl) (stmts : List Stmt) :
    (Block.mk decls stmts).unplaced =
      ⟨decls.map VarDecl.unplaced, stmts.map Stmt.unplaced⟩ := by
  rw [Block.unplaced, Block.relabel, Stmt.relabelAll_eq_map]
  rfl

@[simp] theorem Stmt.unplaced_assign (target : Loc) (value : Expr) :
    (Stmt.assign target value).unplaced = .assign target.unplaced value.unplaced := rfl

@[simp] theorem Stmt.unplaced_increment (target : Loc) :
    (Stmt.increment target).unplaced = .increment target.unplaced := rfl

@[simp] theorem Stmt.unplaced_decrement (target : Loc) :
    (Stmt.decrement target).unplaced = .decrement target.unplaced := rfl

@[simp] theorem Stmt.unplaced_ifThen (cond : Expr) (body : Block Stmt) :
    (Stmt.ifThen cond body).unplaced = .ifThen cond.unplaced body.unplaced := rfl

@[simp] theorem Stmt.unplaced_ifElse (cond : Expr) (body otherwise : Block Stmt) :
    (Stmt.ifElse cond body otherwise).unplaced =
      .ifElse cond.unplaced body.unplaced otherwise.unplaced := rfl

@[simp] theorem Stmt.unplaced_loop (cond : Expr) (body : Block Stmt) :
    (Stmt.loop cond body).unplaced = .loop cond.unplaced body.unplaced := rfl

@[simp] theorem Stmt.unplaced_read (target : Loc) :
    (Stmt.read target).unplaced = .read target.unplaced := rfl

@[simp] theorem Stmt.unplaced_write (value : Expr) :
    (Stmt.write value).unplaced = .write value.unplaced := rfl

@[simp] theorem Stmt.unplaced_call (callee : Ident) (args : List Expr) :
    (Stmt.call callee args).unplaced = .call callee.unplaced (args.map Expr.unplaced) := by
  rw [Stmt.unplaced, Stmt.relabel, Expr.relabelAll_eq_map]
  rfl

@[simp] theorem Stmt.unplaced_retSome (value : Expr) :
    (Stmt.ret (some value)).unplaced = .ret (some value.unplaced) := rfl

@[simp] theorem Formal.unplaced_mk (type : TypeRef) (id : Ident) :
    (Formal.mk type id).unplaced = ⟨type.unplaced, id.unplaced⟩ := rfl

@[simp] theorem Decl.unplaced_var (decl : VarDecl) :
    (Decl.var decl).unplaced = .var decl.unplaced := rfl

@[simp] theorem Decl.unplaced_func (result : TypeRef) (id : Ident) (formals : List Formal)
    (body : Block Stmt) :
    (Decl.func ⟨result, id, formals, body⟩).unplaced =
      .func ⟨result.unplaced, id.unplaced, formals.map Formal.unplaced, body.unplaced⟩ := rfl

@[simp] theorem Decl.unplaced_struct (id : Ident) (fields : List VarDecl) :
    (Decl.struct ⟨id, fields⟩).unplaced =
      .struct ⟨id.unplaced, fields.map VarDecl.unplaced⟩ := rfl

@[simp] theorem Program.unplaced_mk (decls : List Decl) :
    (Program.mk decls).unplaced = ⟨decls.map Decl.unplaced⟩ := rfl

end NameResolution
