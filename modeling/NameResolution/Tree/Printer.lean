import NameResolution.Text.Decimal
import NameResolution.Tree.Basic

/-!
# Printing programs — a tree written as source text

Declarations and statements are written as lines, expressions as text within a line. Every
operation and every assignment inside an expression is put in parentheses, and so is the left side
of a field access. With annotations on, a name that stands for a declared symbol is followed by
that symbol in braces.

* `Expr.print`, `Loc.print` — an expression.
* `Stmt.lines`, `Block.lines`, `Decl.lines` — lines at an indentation.
* `Program.print` — a whole program.
-/

namespace NameResolution

/-! ## Names and types -/

/-- A name, followed by its symbol if that is wanted and the symbol is a declared one. -/
def Ident.print (annotate : Bool) (id : Ident) : String :=
  match id.symbol? with
  | some symbol =>
    if annotate && !symbol.isUndefined then id.name ++ "\x7b" ++ symbol.text ++ "\x7d" else id.name
  | none => id.name

/-- The names of the types that need no `struct` in front. -/
def basicTypes : List String := ["boolean", "integer", "void"]

/-- A type as it is written in a declaration. The name decides: a struct that is named like a basic
type is written like that type. -/
def TypeRef.print (type : TypeRef) : String :=
  if basicTypes.contains type.name then type.name else "struct " ++ type.name

/-! ## Expressions -/

/-- A location; each left side of a colon is put in parentheses. -/
def Loc.print (annotate : Bool) : Loc → String
  | var id => id.print annotate
  | field left id => "(" ++ left.print annotate ++ "):" ++ id.print annotate

mutual

/-- The text of an expression. Every operation and every assignment stands in round brackets. -/
def Expr.print (annotate : Bool) : Expr → String
  | .trueLit _ => "TRUE"
  | .falseLit _ => "FALSE"
  | .intLit _ value => Text.decimalText value
  | .strLit _ literal => literal
  | .loc location => location.print annotate
  | .assign target value => "(" ++ target.print annotate ++ " = " ++ value.print annotate ++ ")"
  | .call callee args =>
    callee.print annotate ++ "(" ++ ", ".intercalate (Expr.printAll annotate args) ++ ")"
  | .unary op operand => "(" ++ op ++ operand.print annotate ++ ")"
  | .binary op left right =>
    "(" ++ left.print annotate ++ " " ++ op ++ " " ++ right.print annotate ++ ")"

def Expr.printAll (annotate : Bool) : List Expr → List String
  | [] => []
  | e :: es => e.print annotate :: Expr.printAll annotate es

end

/-! ## Lines -/

/-- By how much the inside of a block is indented further than the block. -/
def indentStep : Int := 4

/-- A line after `indent` spaces; a negative indentation is none. -/
def indented (indent : Int) (line : String) : String :=
  String.ofList (List.replicate indent.toNat ' ') ++ line

/-- A declaration takes one line. -/
def VarDecl.lines (indent : Int) (d : VarDecl) : List String :=
  [indented indent (d.type.print ++ " " ++ d.id.name ++ ".")]

mutual

/-- The lines of a statement. A block is one step further in than the statement that holds it. -/
def Stmt.lines (annotate : Bool) (indent : Int) : Stmt → List String
  | .assign target value =>
    [indented indent (target.print annotate ++ " = " ++ value.print annotate ++ ".")]
  | .increment target => [indented indent (target.print annotate ++ "++.")]
  | .decrement target => [indented indent (target.print annotate ++ "--.")]
  | .ifThen cond ⟨decls, stmts⟩ =>
    [indented indent ("if (" ++ cond.print annotate ++ ") \x7b")]
      ++ decls.flatMap (VarDecl.lines (indent + indentStep))
      ++ Stmt.linesAll annotate (indent + indentStep) stmts
      ++ [indented indent "\x7d"]
  | .ifElse cond ⟨decls, stmts⟩ ⟨elseDecls, elseStmts⟩ =>
    [indented indent ("if (" ++ cond.print annotate ++ ") \x7b")]
      ++ decls.flatMap (VarDecl.lines (indent + indentStep))
      ++ Stmt.linesAll annotate (indent + indentStep) stmts
      ++ [indented indent "\x7d", indented indent "else \x7b"]
      ++ elseDecls.flatMap (VarDecl.lines (indent + indentStep))
      ++ Stmt.linesAll annotate (indent + indentStep) elseStmts
      ++ [indented indent "\x7d"]
  | .loop cond ⟨decls, stmts⟩ =>
    [indented indent ("while (" ++ cond.print annotate ++ ") \x7b")]
      ++ decls.flatMap (VarDecl.lines (indent + indentStep))
      ++ Stmt.linesAll annotate (indent + indentStep) stmts
      ++ [indented indent "\x7d"]
  | .read target => [indented indent ("input -> " ++ target.print annotate ++ ".")]
  | .write value => [indented indent ("disp <- (" ++ value.print annotate ++ ").")]
  | .call callee args =>
    [indented indent ((Expr.call callee args).print annotate ++ ".")]
  | .ret none => [indented indent "return."]
  | .ret (some value) => [indented indent ("return " ++ value.print annotate ++ ".")]

def Stmt.linesAll (annotate : Bool) (indent : Int) : List Stmt → List String
  | [] => []
  | s :: ss => s.lines annotate indent ++ Stmt.linesAll annotate indent ss

end

/-- The declarations of a block come before its statements. -/
def Block.lines (annotate : Bool) (indent : Int) (b : Block Stmt) : List String :=
  b.decls.flatMap (VarDecl.lines indent) ++ Stmt.linesAll annotate indent b.stmts

/-- A formal, which stands within a line. -/
def Formal.print (f : Formal) : String :=
  f.type.print ++ " " ++ f.id.name

/-- A function, with an empty line after it. -/
def FuncDecl.lines (annotate : Bool) (indent : Int) (f : FuncDecl) : List String :=
  [indented indent (f.result.print ++ " " ++ f.id.name ++ "["
      ++ ", ".intercalate (f.formals.map Formal.print) ++ "] [")]
    ++ f.body.lines annotate (indent + indentStep)
    ++ [indented indent "]", ""]

/-- A struct, with an empty line after it. -/
def StructDecl.lines (indent : Int) (s : StructDecl) : List String :=
  [indented indent ("struct " ++ s.id.name ++ " [")]
    ++ s.fields.flatMap (VarDecl.lines (indent + indentStep))
    ++ [indented indent "]", ""]

/-- The lines of a declaration of the program. -/
def Decl.lines (annotate : Bool) (indent : Int) : Decl → List String
  | var decl => decl.lines indent
  | func decl => decl.lines annotate indent
  | struct decl => decl.lines indent

/-- The lines of a program, one declaration after the other. -/
def Program.lines (annotate : Bool) (indent : Int) (p : Program) : List String :=
  p.decls.flatMap (Decl.lines annotate indent)

/-- The program as source text. -/
def Program.print (annotate : Bool) (p : Program) : String :=
  "\n".intercalate (p.lines annotate 0) ++ "\n"

end NameResolution
