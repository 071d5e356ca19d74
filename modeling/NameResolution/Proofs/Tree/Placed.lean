import NameResolution.Proofs.Tree.Marks
import NameResolution.Proofs.Tree.Relabel

/-!
# Placed trees — a tree from its shape and its marks

The marks of a tree carry its positions. So what a tree without positions leaves open is said by the
marks: two trees of one shape with the same marks are the same tree.

* `Program.marks_relabel` — the marks of a relabelled tree.
* `Marking` — a kind of tree whose shape tells how many marks there are.
* `Program.eq_of_marks` — a tree is determined by its shape and its marks.
-/

namespace NameResolution

/-! ## Marks of a relabelled tree -/

section Relabel

variable (place : Position → Position) (name : Ident → Ident)

/-- The mark with another position, and with another identifier if it is one. -/
def Mark.relabel : Mark → Mark
  | .name id => .name (name id)
  | .truth pos value => .truth (place pos) value
  | .number pos value => .number (place pos) value
  | .string pos literal => .string (place pos) literal
  | .operator op => .operator op

theorem flatMap_marks_relabel {α : Type} {relabel : α → α} {marks : α → List Mark}
    (h : ∀ x, marks (relabel x) = (marks x).map (Mark.relabel place name)) (xs : List α) :
    (xs.map relabel).flatMap marks = (xs.flatMap marks).map (Mark.relabel place name) := by
  rw [List.flatMap_map, List.map_flatMap]
  simp only [h]

theorem TypeRef.marks_relabel (type : TypeRef) :
    (type.relabel name).marks = type.marks.map (Mark.relabel place name) := by
  cases type <;> rfl

theorem Loc.marks_relabel (l : Loc) :
    (l.relabel name).marks = l.marks.map (Mark.relabel place name) := by
  induction l with
  | var id => rfl
  | field left id ih => rw [Loc.relabel, Loc.marks, Loc.marks, ih, List.map_append]; rfl

theorem VarDecl.marks_relabel (d : VarDecl) :
    (d.relabel name).marks = d.marks.map (Mark.relabel place name) := by
  rw [VarDecl.marks, VarDecl.marks, List.map_append, ← TypeRef.marks_relabel]
  rfl

theorem Formal.marks_relabel (f : Formal) :
    (f.relabel name).marks = f.marks.map (Mark.relabel place name) := by
  rw [Formal.marks, Formal.marks, List.map_append, ← TypeRef.marks_relabel]
  rfl

mutual

/-- Relabelling an expression relabels its marks. -/
theorem Expr.marks_relabel : (e : Expr) →
    (e.relabel place name).marks = e.marks.map (Mark.relabel place name)
  | .trueLit _ | .falseLit _ | .intLit _ _ | .strLit _ _ => rfl
  | .loc location => by
    rw [Expr.relabel, Expr.marks, Expr.marks, Loc.marks_relabel place name]
  | .assign target value => by
    simp [Expr.relabel, Expr.marks, Loc.marks_relabel place name, Expr.marks_relabel value,
      Mark.relabel]
  | .call callee args => by
    simp [Expr.relabel, Expr.marks, Expr.marksAll_relabel args, Mark.relabel]
  | .unary op operand => by
    simp [Expr.relabel, Expr.marks, Expr.marks_relabel operand, Mark.relabel]
  | .binary op left right => by
    simp [Expr.relabel, Expr.marks, Expr.marks_relabel left, Expr.marks_relabel right,
      Mark.relabel]

theorem Expr.marksAll_relabel : (es : List Expr) →
    Expr.marksAll (Expr.relabelAll place name es) =
      (Expr.marksAll es).map (Mark.relabel place name)
  | [] => rfl
  | e :: es => by
    simp [Expr.relabelAll, Expr.marksAll, Expr.marks_relabel e, Expr.marksAll_relabel es]

end

mutual

/-- Relabelling a statement relabels its marks. -/
theorem Stmt.marks_relabel : (s : Stmt) →
    (s.relabel place name).marks = s.marks.map (Mark.relabel place name)
  | .assign target value => by
    simp [Stmt.relabel, Stmt.marks, Loc.marks_relabel place name, Expr.marks_relabel,
      Mark.relabel]
  | .increment target | .decrement target | .read target => by
    simp [Stmt.relabel, Stmt.marks, Loc.marks_relabel place name, Mark.relabel]
  | .ifThen cond ⟨decls, stmts⟩ | .loop cond ⟨decls, stmts⟩ => by
    simp [Stmt.relabel, Stmt.marks, Expr.marks_relabel, Stmt.marksAll_relabel stmts,
      flatMap_marks_relabel place name (VarDecl.marks_relabel place name)]
  | .ifElse cond ⟨decls, stmts⟩ ⟨elseDecls, elseStmts⟩ => by
    simp [Stmt.relabel, Stmt.marks, Expr.marks_relabel, Stmt.marksAll_relabel stmts,
      Stmt.marksAll_relabel elseStmts,
      flatMap_marks_relabel place name (VarDecl.marks_relabel place name)]
  | .write value => by simp [Stmt.relabel, Stmt.marks, Expr.marks_relabel, Mark.relabel]
  | .call callee args => by
    simp [Stmt.relabel, Stmt.marks, Expr.marksAll_relabel, Mark.relabel]
  | .ret none => rfl
  | .ret (some value) => by rw [Stmt.relabel, Stmt.marks, Stmt.marks, Expr.marks_relabel]

theorem Stmt.marksAll_relabel : (ss : List Stmt) →
    Stmt.marksAll (Stmt.relabelAll place name ss) =
      (Stmt.marksAll ss).map (Mark.relabel place name)
  | [] => rfl
  | s :: ss => by
    simp [Stmt.relabelAll, Stmt.marksAll, Stmt.marks_relabel s, Stmt.marksAll_relabel ss]

end

theorem Decl.marks_relabel (d : Decl) :
    (d.relabel place name).marks = d.marks.map (Mark.relabel place name) := by
  cases d with
  | var d => exact d.marks_relabel place name
  | func f =>
    simp [Decl.relabel, Decl.marks, FuncDecl.relabel, FuncDecl.marks, Block.relabel,
      TypeRef.marks_relabel place name, Stmt.marksAll_relabel, Mark.relabel,
      flatMap_marks_relabel place name (Formal.marks_relabel place name),
      flatMap_marks_relabel place name (VarDecl.marks_relabel place name)]
  | struct s =>
    simp [Decl.relabel, Decl.marks, StructDecl.relabel, StructDecl.marks, Mark.relabel,
      flatMap_marks_relabel place name (VarDecl.marks_relabel place name)]

/-- Relabelling a program relabels each of its marks. -/
theorem Program.marks_relabel (p : Program) :
    (p.relabel place name).marks = p.marks.map (Mark.relabel place name) :=
  flatMap_marks_relabel place name (Decl.marks_relabel place name) p.decls

end Relabel

/-! ## Trees with the same shape and the same marks -/

/-- The mark without its position. -/
def Mark.unplaced : Mark → Mark :=
  Mark.relabel nowhere Ident.unplaced

/-- How a tree loses its positions, and how it is marked. -/
structure Marking (α : Type) where
  unplaced : α → α
  marks : α → List Mark
  marks_unplaced : ∀ x, marks (unplaced x) = (marks x).map Mark.unplaced

namespace Marking

variable {α : Type} (m : Marking α)

/-- No other tree of the same shape has the same marks. -/
def Fixes (x : α) : Prop :=
  ∀ y, m.unplaced x = m.unplaced y → m.marks x = m.marks y → x = y

/-- The shape of a tree tells how many marks it has. -/
theorem length_eq {x y : α} (h : m.unplaced x = m.unplaced y) :
    (m.marks x).length = (m.marks y).length := by
  have hMarks := congrArg m.marks h
  rw [m.marks_unplaced, m.marks_unplaced] at hMarks
  simpa using congrArg List.length hMarks

/-- The marks of a first part are apart from all others. -/
theorem split {x y : α} {rest rest' : List Mark} (hShape : m.unplaced x = m.unplaced y)
    (hMarks : m.marks x ++ rest = m.marks y ++ rest') :
    m.marks x = m.marks y ∧ rest = rest' :=
  List.append_inj hMarks (m.length_eq hShape)

/-- Lists of trees. -/
def all : Marking (List α) where
  unplaced := List.map m.unplaced
  marks := List.flatMap m.marks
  marks_unplaced := flatMap_marks_relabel nowhere Ident.unplaced m.marks_unplaced

/-- If every item is determined by its shape and its marks, so is the list. -/
theorem fixes_all {xs : List α} (h : ∀ x ∈ xs, m.Fixes x) : m.all.Fixes xs := by
  induction xs with
  | nil =>
    intro ys hShape _
    exact (List.map_eq_nil_iff.mp hShape.symm).symm
  | cons x xs ih =>
    obtain ⟨hFirst, hOthers⟩ := List.forall_mem_cons.mp h
    intro ys hShape hMarks
    cases ys with
    | nil => cases hShape
    | cons y ys =>
      obtain ⟨hHead, hTail⟩ := List.cons.inj hShape
      -- the shapes of the heads agree, so the marks split at the same place
      obtain ⟨hHeadMarks, hTailMarks⟩ := m.split hHead hMarks
      rw [hFirst y hHead hHeadMarks, ih hOthers ys hTail hTailMarks]

end Marking

/-! ### Names, types and locations -/

def TypeRef.marking : Marking TypeRef where
  unplaced := TypeRef.unplaced
  marks := TypeRef.marks
  marks_unplaced := TypeRef.marks_relabel nowhere Ident.unplaced

def Loc.marking : Marking Loc where
  unplaced := Loc.unplaced
  marks := Loc.marks
  marks_unplaced := Loc.marks_relabel nowhere Ident.unplaced

def VarDecl.marking : Marking VarDecl where
  unplaced := VarDecl.unplaced
  marks := VarDecl.marks
  marks_unplaced := VarDecl.marks_relabel nowhere Ident.unplaced

def Formal.marking : Marking Formal where
  unplaced := Formal.unplaced
  marks := Formal.marks
  marks_unplaced := Formal.marks_relabel nowhere Ident.unplaced

def Expr.marking : Marking Expr where
  unplaced := Expr.unplaced
  marks := Expr.marks
  marks_unplaced := Expr.marks_relabel nowhere Ident.unplaced

def Stmt.marking : Marking Stmt where
  unplaced := Stmt.unplaced
  marks := Stmt.marks
  marks_unplaced := Stmt.marks_relabel nowhere Ident.unplaced

def Decl.marking : Marking Decl where
  unplaced := Decl.unplaced
  marks := Decl.marks
  marks_unplaced := Decl.marks_relabel nowhere Ident.unplaced

/-- A type is determined by its shape and its marks. -/
theorem TypeRef.fixed (type : TypeRef) : TypeRef.marking.Fixes type := by
  intro other hShape hMarks
  cases type with
  -- types of one shape differ in a struct name at most, and that leaves a mark
  | struct id =>
    cases other with
    | struct id' =>
      cases hMarks
      rfl
    | boolean | integer | void => cases hShape
  | boolean | integer | void =>
    cases other with
    | struct => cases hShape
    | boolean | integer | void => first | rfl | cases hShape

/-- A location is determined by its shape and its marks. -/
theorem Loc.fixed (l : Loc) : Loc.marking.Fixes l := by
  induction l with
  | var id =>
    intro other hShape hMarks
    cases other with
    | var id' =>
      cases hMarks
      rfl
    | field => cases hShape
  | field left id ih =>
    intro other hShape hMarks
    cases other with
    | var => cases hShape
    | field left' id' =>
      obtain ⟨hLeft, -⟩ := Loc.field.inj hShape
      -- the marks of the shorter chain come first
      obtain ⟨hLeftMarks, hRest⟩ := Loc.marking.split hLeft hMarks
      cases hRest
      rw [ih left' hLeft hLeftMarks]

/-- A variable is determined by its shape and its marks. -/
theorem VarDecl.fixed (d : VarDecl) : VarDecl.marking.Fixes d := by
  obtain ⟨type, id, isField⟩ := d
  rintro ⟨type', id', isField'⟩ hShape hMarks
  obtain ⟨hType, -, rfl⟩ := VarDecl.mk.inj hShape
  obtain ⟨hTypeMarks, hRest⟩ := TypeRef.marking.split hType hMarks
  cases hRest
  rw [type.fixed type' hType hTypeMarks]

/-- A formal is determined by its shape and its marks. -/
theorem Formal.fixed (f : Formal) : Formal.marking.Fixes f := by
  obtain ⟨type, id⟩ := f
  rintro ⟨type', id'⟩ hShape hMarks
  obtain ⟨hType, -⟩ := Formal.mk.inj hShape
  obtain ⟨hTypeMarks, hRest⟩ := TypeRef.marking.split hType hMarks
  cases hRest
  rw [type.fixed type' hType hTypeMarks]

/-! ### Expressions and statements -/

mutual

/-- An expression is determined by its shape and its marks. Another expression of the same shape
has the same constructor, so only one case of each match is left. -/
theorem Expr.fixed : (e : Expr) → Expr.marking.Fixes e
  | .trueLit pos => by
    intro other hShape hMarks
    cases other with
    | trueLit pos' =>
      cases hMarks
      rfl
    | _ => cases hShape
  | .falseLit pos => by
    intro other hShape hMarks
    cases other with
    | falseLit pos' =>
      cases hMarks
      rfl
    | _ => cases hShape
  | .intLit pos value => by
    intro other hShape hMarks
    cases other with
    | intLit pos' value' =>
      cases hMarks
      rfl
    | _ => cases hShape
  | .strLit pos literal => by
    intro other hShape hMarks
    cases other with
    | strLit pos' literal' =>
      cases hMarks
      rfl
    | _ => cases hShape
  | .loc location => by
    intro other hShape hMarks
    cases other with
    | loc location' => rw [location.fixed location' (Expr.loc.inj hShape) hMarks]
    | _ => cases hShape
  | .assign target value => by
    intro other hShape hMarks
    cases other with
    | assign target' value' =>
      obtain ⟨hTarget, hValue⟩ := Expr.assign.inj hShape
      obtain ⟨hTargetMarks, hRest⟩ := Loc.marking.split hTarget hMarks
      rw [target.fixed target' hTarget hTargetMarks,
        Expr.fixed value value' hValue (List.cons.inj hRest).2]
    | _ => cases hShape
  | .call callee args => by
    intro other hShape hMarks
    cases other with
    | call callee' args' =>
      obtain ⟨-, hArgs⟩ := Expr.call.inj hShape
      obtain ⟨hCallee, hArgMarks⟩ := List.cons.inj hMarks
      -- the arguments are lists of expressions, whose marks are split item by item
      rw [Expr.relabelAll_eq_map, Expr.relabelAll_eq_map] at hArgs
      rw [Expr.marksAll_eq_flatMap, Expr.marksAll_eq_flatMap] at hArgMarks
      rw [Mark.name.inj hCallee,
        Expr.marking.fixes_all (Expr.fixedAll args) args' hArgs hArgMarks]
    | _ => cases hShape
  | .unary op operand => by
    intro other hShape hMarks
    cases other with
    | unary op' operand' =>
      obtain ⟨rfl, hOperand⟩ := Expr.unary.inj hShape
      rw [Expr.fixed operand operand' hOperand (List.cons.inj hMarks).2]
    | _ => cases hShape
  | .binary op left right => by
    intro other hShape hMarks
    cases other with
    | binary op' left' right' =>
      obtain ⟨rfl, hLeft, hRight⟩ := Expr.binary.inj hShape
      obtain ⟨hLeftMarks, hRest⟩ := Expr.marking.split hLeft hMarks
      rw [Expr.fixed left left' hLeft hLeftMarks,
        Expr.fixed right right' hRight (List.cons.inj hRest).2]
    | _ => cases hShape

theorem Expr.fixedAll : (es : List Expr) → ∀ e ∈ es, Expr.marking.Fixes e
  | [] => List.forall_mem_nil _
  | e :: es => List.forall_mem_cons.mpr ⟨Expr.fixed e, Expr.fixedAll es⟩

end

/-- The declarations and statements of a body. -/
def Block.marking : Marking (Block Stmt) where
  unplaced := Block.unplaced
  marks b := b.decls.flatMap VarDecl.marks ++ Stmt.marksAll b.stmts
  marks_unplaced b := by
    rw [Block.unplaced, Block.relabel, Stmt.marksAll_relabel,
      flatMap_marks_relabel nowhere _ (VarDecl.marks_relabel nowhere _), ← List.map_append]
    rfl

/-- A block is determined by its shape and its marks if its statements are. -/
theorem Block.fixed {b : Block Stmt} (h : ∀ s ∈ b.stmts, Stmt.marking.Fixes s) :
    Block.marking.Fixes b := by
  obtain ⟨decls, stmts⟩ := b
  rintro ⟨decls', stmts'⟩ hShape hMarks
  obtain ⟨hDecls, hStmts⟩ := Block.mk.inj hShape
  obtain ⟨hDeclMarks, hStmtMarks⟩ := VarDecl.marking.all.split hDecls hMarks
  rw [Stmt.relabelAll_eq_map, Stmt.relabelAll_eq_map] at hStmts
  rw [Stmt.marksAll_eq_flatMap, Stmt.marksAll_eq_flatMap] at hStmtMarks
  have hSameDecls : decls = decls' :=
    VarDecl.marking.fixes_all (fun d _ => d.fixed) decls' hDecls hDeclMarks
  have hSameStmts : stmts = stmts' := Stmt.marking.fixes_all h stmts' hStmts hStmtMarks
  rw [hSameDecls, hSameStmts]

-- the shape of a return statement is open until it is known whether there is a value, so other
-- shapes are told apart from it in both cases
mutual

/-- A statement is determined by its shape and its marks. The shape of a return depends on
whether it has a value, so that case is opened by hand. -/
theorem Stmt.fixed : (s : Stmt) → Stmt.marking.Fixes s
  | .assign target value => by
    intro other hShape hMarks
    cases other with
    | assign target' value' =>
      obtain ⟨hTarget, hValue⟩ := Stmt.assign.inj hShape
      obtain ⟨hTargetMarks, hRest⟩ := Loc.marking.split hTarget hMarks
      rw [target.fixed target' hTarget hTargetMarks,
        value.fixed value' hValue (List.cons.inj hRest).2]
    | ret value? => cases value? <;> cases hShape
    | _ => cases hShape
  | .increment target => by
    intro other hShape hMarks
    cases other with
    | increment target' =>
      have hTarget := Stmt.increment.inj hShape
      rw [target.fixed target' hTarget (Loc.marking.split hTarget hMarks).1]
    | ret value? => cases value? <;> cases hShape
    | _ => cases hShape
  | .decrement target => by
    intro other hShape hMarks
    cases other with
    | decrement target' =>
      have hTarget := Stmt.decrement.inj hShape
      rw [target.fixed target' hTarget (Loc.marking.split hTarget hMarks).1]
    | ret value? => cases value? <;> cases hShape
    | _ => cases hShape
  | .ifThen cond ⟨decls, stmts⟩ => by
    intro other hShape hMarks
    cases other with
    | ifThen cond' body' =>
      obtain ⟨hCond, hBody⟩ := Stmt.ifThen.inj hShape
      obtain ⟨hCondMarks, hBodyMarks⟩ := Expr.marking.split hCond hMarks
      rw [cond.fixed cond' hCond hCondMarks,
        Block.fixed (b := ⟨decls, stmts⟩) (Stmt.fixedAll stmts) body' hBody hBodyMarks]
    | ret value? => cases value? <;> cases hShape
    | _ => cases hShape
  | .ifElse cond ⟨decls, stmts⟩ ⟨elseDecls, elseStmts⟩ => by
    intro other hShape hMarks
    cases other with
    | ifElse cond' body' otherwise' =>
      obtain ⟨hCond, hBody, hElse⟩ := Stmt.ifElse.inj hShape
      -- the marks are bracketed to the left, and are split from the left
      have hAll : cond.marks ++ (Block.marking.marks ⟨decls, stmts⟩ ++
          Block.marking.marks ⟨elseDecls, elseStmts⟩) =
          cond'.marks ++ (Block.marking.marks body' ++ Block.marking.marks otherwise') := by
        rw [← List.append_assoc, ← List.append_assoc]
        exact hMarks
      obtain ⟨hCondMarks, hRest⟩ := Expr.marking.split hCond hAll
      obtain ⟨hBodyMarks, hElseMarks⟩ :=
        Block.marking.split (x := ⟨decls, stmts⟩) (y := body') hBody hRest
      rw [cond.fixed cond' hCond hCondMarks,
        Block.fixed (b := ⟨decls, stmts⟩) (Stmt.fixedAll stmts) body' hBody hBodyMarks,
        Block.fixed (b := ⟨elseDecls, elseStmts⟩) (Stmt.fixedAll elseStmts) otherwise' hElse
          hElseMarks]
    | ret value? => cases value? <;> cases hShape
    | _ => cases hShape
  | .loop cond ⟨decls, stmts⟩ => by
    intro other hShape hMarks
    cases other with
    | loop cond' body' =>
      obtain ⟨hCond, hBody⟩ := Stmt.loop.inj hShape
      obtain ⟨hCondMarks, hBodyMarks⟩ := Expr.marking.split hCond hMarks
      rw [cond.fixed cond' hCond hCondMarks,
        Block.fixed (b := ⟨decls, stmts⟩) (Stmt.fixedAll stmts) body' hBody hBodyMarks]
    | ret value? => cases value? <;> cases hShape
    | _ => cases hShape
  | .read target => by
    intro other hShape hMarks
    cases other with
    | read target' =>
      rw [target.fixed target' (Stmt.read.inj hShape) (List.cons.inj hMarks).2]
    | ret value? => cases value? <;> cases hShape
    | _ => cases hShape
  | .write value => by
    intro other hShape hMarks
    cases other with
    | write value' =>
      rw [value.fixed value' (Stmt.write.inj hShape) (List.cons.inj hMarks).2]
    | ret value? => cases value? <;> cases hShape
    | _ => cases hShape
  | .call callee args => by
    intro other hShape hMarks
    cases other with
    | call callee' args' =>
      obtain ⟨-, hArgs⟩ := Stmt.call.inj hShape
      obtain ⟨hCallee, hArgMarks⟩ := List.cons.inj hMarks
      rw [Expr.relabelAll_eq_map, Expr.relabelAll_eq_map] at hArgs
      rw [Expr.marksAll_eq_flatMap, Expr.marksAll_eq_flatMap] at hArgMarks
      rw [Mark.name.inj hCallee,
        Expr.marking.fixes_all (Expr.fixedAll args) args' hArgs hArgMarks]
    | ret value? => cases value? <;> cases hShape
    | _ => cases hShape
  | .ret none => by
    intro other hShape hMarks
    cases other with
    | ret value? =>
      cases value? with
      | none => rfl
      | some => cases hShape
    | _ => cases hShape
  | .ret (some value) => by
    intro other hShape hMarks
    cases other with
    | ret value? =>
      cases value? with
      | none => cases hShape
      | some value' =>
        rw [value.fixed value' (Option.some.inj (Stmt.ret.inj hShape)) hMarks]
    | _ => cases hShape

theorem Stmt.fixedAll : (ss : List Stmt) → ∀ s ∈ ss, Stmt.marking.Fixes s
  | [] => List.forall_mem_nil _
  | s :: ss => List.forall_mem_cons.mpr ⟨Stmt.fixed s, Stmt.fixedAll ss⟩

end

/-! ### Declarations -/

/-- A declaration is determined by its shape and its marks. -/
theorem Decl.fixed (d : Decl) : Decl.marking.Fixes d := by
  intro other hShape hMarks
  cases d with
  | var decl =>
    cases other with
    | var decl' => rw [decl.fixed decl' (Decl.var.inj hShape) hMarks]
    | _ => cases hShape
  | func f =>
    obtain ⟨result, id, formals, body⟩ := f
    cases other with
    | func f' =>
      obtain ⟨result', id', formals', body'⟩ := f'
      obtain ⟨hResult, -, hFormals, hBody⟩ := FuncDecl.mk.inj (Decl.func.inj hShape)
      -- the name of the function stands between the marks of its result and those of its formals
      have hAll : result.marks ++ .name id :: (formals.flatMap Formal.marks ++
          Block.marking.marks body) =
          result'.marks ++ .name id' :: (formals'.flatMap Formal.marks ++
            Block.marking.marks body') := by
        have hAppend : ∀ (ms : List Mark) (i : Ident) (fs : List Formal) (b : Block Stmt),
            ms ++ .name i :: (fs.flatMap Formal.marks ++ Block.marking.marks b) =
              ms ++ [.name i] ++ fs.flatMap Formal.marks ++ Block.marking.marks b := by
          simp
        rw [hAppend, hAppend]
        exact hMarks
      obtain ⟨hResultMarks, hRest⟩ := TypeRef.marking.split hResult hAll
      obtain ⟨hId, hRest⟩ := List.cons.inj hRest
      obtain ⟨hFormalMarks, hBodyMarks⟩ := Formal.marking.all.split hFormals hRest
      have hSameFormals : formals = formals' :=
        Formal.marking.fixes_all (fun f _ => f.fixed) formals' hFormals hFormalMarks
      have hSameBody : body = body' := Block.fixed (fun s _ => s.fixed) body' hBody hBodyMarks
      rw [result.fixed result' hResult hResultMarks, Mark.name.inj hId, hSameFormals, hSameBody]
    | _ => cases hShape
  | struct s =>
    obtain ⟨id, fields⟩ := s
    cases other with
    | struct s' =>
      obtain ⟨id', fields'⟩ := s'
      obtain ⟨-, hFields⟩ := StructDecl.mk.inj (Decl.struct.inj hShape)
      obtain ⟨hId, hFieldMarks⟩ := List.cons.inj hMarks
      have hSame : fields = fields' :=
        VarDecl.marking.fixes_all (fun d _ => d.fixed) fields' hFields hFieldMarks
      obtain rfl : id = id' := Mark.name.inj hId
      rw [hSame]
    | _ => cases hShape

/-- A program is determined by its shape and its marks. -/
theorem Program.eq_of_marks {p q : Program} (hShape : p.unplaced = q.unplaced)
    (hMarks : p.marks = q.marks) : p = q := by
  obtain ⟨decls⟩ := p
  obtain ⟨decls'⟩ := q
  have hSame : decls = decls' :=
    Decl.marking.fixes_all (fun d _ => d.fixed) decls' (Program.mk.inj hShape) hMarks
  rw [hSame]

end NameResolution
