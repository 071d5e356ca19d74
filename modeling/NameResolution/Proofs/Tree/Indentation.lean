import Mathlib.Data.List.Basic
import NameResolution.Tree.Printer

/-!
# Indentation — lines that move to the right together

A declaration, a statement, a body or a whole program is printed as the same lines at every
indentation: further in, there are more spaces in front of each of them. The empty lines behind
functions and structs stay empty.

* `shifted` — a line with more spaces in front.
* `Uniform` — lines that move together, with a rule for each way of putting lines together.
* `lines_move_together` — all that is printed as lines does so.
-/

namespace NameResolution

/-- The line with `k` more spaces in front of it; an empty one stays empty. -/
def shifted (k : Nat) (line : String) : String :=
  if line = "" then "" else String.ofList (List.replicate k ' ') ++ line

/-- A line that is not empty moves by blanks in front of it. -/
theorem shifted_of_ne_empty {line : String} (h : line ≠ "") (k : Nat) :
    shifted k line = String.ofList (List.replicate k ' ') ++ line :=
  if_neg h

/-- A text with a visible end is not empty. -/
theorem append_ne_empty (s : String) {t : String} (h : t ≠ "") : s ++ t ≠ "" := by
  simp [String.append_eq_empty_iff, h]

/-- Further in, there are more spaces in front of a line. -/
theorem indented_add (n k : Nat) {line : String} (h : line ≠ "") :
    indented (n + k) line = shifted k (indented n line) := by
  have hWidth : ((n : Int) + k).toNat = k + n := by omega
  unfold indented
  rw [shifted_of_ne_empty (append_ne_empty _ h), hWidth, Int.toNat_natCast, List.replicate_add,
    String.ofList_append, String.append_assoc]

/-! ## Lines -/

/-- The lines move together: at a greater indentation they have that many more spaces in front. -/
def Uniform (lines : Int → List String) : Prop :=
  ∀ n k : Nat, lines (n + k) = (lines n).map (shifted k)

namespace Uniform

/-- One indented line moves with its indentation. -/
theorem line {text : String} (h : text ≠ "") : Uniform fun indent => [indented indent text] := by
  intro n k
  simp [indented_add n k h]

/-- The empty line stays where it is. -/
theorem empty : Uniform fun _ => [""] := fun _ _ => rfl

/-- Lines that move together can be put behind one another. -/
theorem append {lines lines' : Int → List String} (h : Uniform lines) (h' : Uniform lines') :
    Uniform fun indent => lines indent ++ lines' indent := by
  intro n k
  simp only [h n k, h' n k, List.map_append]

/-- What is inside a block moves with the block. -/
theorem inside {lines : Int → List String} (h : Uniform lines) :
    Uniform fun indent => lines (indent + indentStep) := by
  intro n k
  have hStep : (n : Int) + k + indentStep = ((n + 4 : Nat) : Int) + k := by
    simp only [indentStep]
    omega
  have hInside : (n : Int) + indentStep = ((n + 4 : Nat) : Int) := rfl
  simp only [hStep, hInside, h (n + 4) k]

/-- Lines that move together item by item move together as a whole. -/
theorem flatMap {α : Type} {lines : Int → α → List String} (h : ∀ x, Uniform fun i => lines i x)
    (xs : List α) : Uniform fun indent => xs.flatMap (lines indent) := by
  induction xs with
  | nil => exact fun _ _ => rfl
  | cons x xs ih => exact (h x).append ih

end Uniform

/-! ## Statements -/

/-- The line of a declaration moves with its indentation. -/
theorem VarDecl.lines_uniform (d : VarDecl) : Uniform fun indent => d.lines indent :=
  .line (append_ne_empty _ (by decide))

/-- A block in braces, behind a condition or an `else`. -/
theorem braces_uniform {opening : String} {stmts : Int → List String} (hOpening : opening ≠ "")
    (decls : List VarDecl) (hStmts : Uniform stmts) :
    Uniform fun indent => [indented indent opening] ++
      decls.flatMap (VarDecl.lines (indent + indentStep)) ++ stmts (indent + indentStep) ++
      [indented indent "\x7d"] := by
  have hDecls := (Uniform.flatMap VarDecl.lines_uniform decls).inside
  have hBrace : Uniform fun indent => [indented indent "\x7d"] := .line (by decide)
  exact (((Uniform.line hOpening).append hDecls).append hStmts.inside).append hBrace

mutual

/-- All the lines of a statement move together. -/
theorem Stmt.lines_uniform (annotate : Bool) :
    (s : Stmt) → Uniform fun indent => s.lines annotate indent
  | .assign target value => by
    simp only [Stmt.lines]
    exact .line (append_ne_empty _ (by decide))
  | .increment target | .decrement target => by
    simp only [Stmt.lines]
    exact .line (append_ne_empty _ (by decide))
  | .ifThen cond ⟨decls, stmts⟩ | .loop cond ⟨decls, stmts⟩ => by
    simp only [Stmt.lines]
    exact braces_uniform (append_ne_empty _ (by decide)) decls
      (Stmt.linesAll_uniform annotate stmts)
  | .ifElse cond ⟨decls, stmts⟩ ⟨elseDecls, elseStmts⟩ => by
    have hOpening : "if (" ++ cond.print annotate ++ ") \x7b" ≠ "" :=
      append_ne_empty _ (by decide)
    have hElse : "else \x7b" ≠ "" := by decide
    have hThen := braces_uniform hOpening decls (Stmt.linesAll_uniform annotate stmts)
    have hOther := braces_uniform hElse elseDecls (Stmt.linesAll_uniform annotate elseStmts)
    -- the last line of the one block and the first line of the other stand in one list
    simpa [Stmt.lines] using hThen.append hOther
  | .read target | .write value | .call callee args => by
    simp only [Stmt.lines]
    exact .line (append_ne_empty _ (by decide))
  | .ret none => by
    simp only [Stmt.lines]
    exact .line (by decide)
  | .ret (some value) => by
    simp only [Stmt.lines]
    exact .line (append_ne_empty _ (by decide))

theorem Stmt.linesAll_uniform (annotate : Bool) :
    (ss : List Stmt) → Uniform fun indent => Stmt.linesAll annotate indent ss
  | [] => fun _ _ => rfl
  | s :: ss => by
    simp only [Stmt.linesAll]
    exact (Stmt.lines_uniform annotate s).append (Stmt.linesAll_uniform annotate ss)

end

/-- All the lines of a block move together. -/
theorem Block.lines_uniform (annotate : Bool) (b : Block Stmt) :
    Uniform fun indent => b.lines annotate indent :=
  (Uniform.flatMap VarDecl.lines_uniform b.decls).append (Stmt.linesAll_uniform annotate b.stmts)

/-! ## Declarations -/

/-- Lines in brackets, with an empty line behind them. -/
theorem brackets_uniform {opening : String} {lines : Int → List String} (hOpening : opening ≠ "")
    (h : Uniform lines) :
    Uniform fun indent => [indented indent opening] ++ lines (indent + indentStep) ++
      [indented indent "]", ""] := by
  have hBracket : Uniform fun indent => [indented indent "]"] := .line (by decide)
  exact ((Uniform.line hOpening).append h.inside).append (hBracket.append .empty)

/-- All the lines of a declaration move together. -/
theorem Decl.lines_uniform (annotate : Bool) (d : Decl) :
    Uniform fun indent => d.lines annotate indent := by
  cases d with
  | var decl => exact decl.lines_uniform
  | func decl =>
    exact brackets_uniform (append_ne_empty _ (by decide)) (decl.body.lines_uniform annotate)
  | struct decl =>
    exact brackets_uniform (append_ne_empty _ (by decide))
      (Uniform.flatMap VarDecl.lines_uniform decl.fields)

/-- **Indentation.** Declarations, statements, bodies and programs are printed as the same lines at
every indentation, annotated or not. With `k` spaces more, each line has `k` more spaces in front,
and the empty ones stay empty. -/
theorem lines_move_together (annotate : Bool) (n k : Nat) :
    (∀ d : Decl, d.lines annotate (n + k) = (d.lines annotate n).map (shifted k)) ∧
    (∀ s : Stmt, s.lines annotate (n + k) = (s.lines annotate n).map (shifted k)) ∧
    (∀ b : Block Stmt, b.lines annotate (n + k) = (b.lines annotate n).map (shifted k)) ∧
    ∀ p : Program, p.lines annotate (n + k) = (p.lines annotate n).map (shifted k) := by
  refine ⟨fun d => ?_, fun s => ?_, fun b => ?_, fun p => ?_⟩
  · exact d.lines_uniform annotate n k
  · exact s.lines_uniform annotate n k
  · exact b.lines_uniform annotate n k
  · exact Uniform.flatMap (Decl.lines_uniform annotate) p.decls n k

end NameResolution
