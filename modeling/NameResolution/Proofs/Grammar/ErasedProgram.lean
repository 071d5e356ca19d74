import NameResolution.Proofs.Analysis.Retouch
import NameResolution.Proofs.Analysis.Walk
import NameResolution.Proofs.Grammar.Conservation
import NameResolution.Proofs.Grammar.Erasing
import NameResolution.Proofs.Grammar.PrintedProgram
import NameResolution.Proofs.Grammar.Relabelled
import NameResolution.Proofs.Grammar.Soundness
import NameResolution.Proofs.Grammar.Unprinting
import NameResolution.Proofs.Tree.Placed

/-!
# Erased programs — annotations only add to a printed text

An analysis changes nothing of a tree but the symbols on its names, and symbols show in annotations
only. So the text of an analyzed program without its annotations is the text that the program had
before. For the printer, a tree is made of its names, literals and operators; braces and quotes are
in strings, or in what the printer itself writes.

* `Mark.Written` — names, strings and operators as they can stand in a text.
* `Expr.erases`, `Stmt.erases`, `Decl.erases` — what is printed, line by line.
* `annotations_erasable` — programs that are parsed and analyzed.
-/

namespace NameResolution

open Grammar

/-! ## Names, literals and operators -/

/-- The mark can be written: as a name, as a string, or as an operator, which has no quote and no
opening brace in it. -/
def Mark.Written : Mark → Prop
  | name id => isName id.name.toList = true
  | string _ literal => scanString literal.toList = some (literal, [])
  | operator op => ∀ c ∈ op.toList, c ≠ '"' ∧ c ≠ '\x7b'
  | truth _ _ | number _ _ => True

/-- A token that has its form leaves a mark that is written as such a mark can be. -/
theorem Grammar.Token.WellFormed.written {t : Token} (h : t.WellFormed) :
    ∀ mark ∈ t.mark?, mark.Written := by
  intro mark hMark
  cases t with
  | keyword => cases hMark
  | truth | number =>
    cases hMark
    trivial
  | name | string =>
    cases hMark
    exact h
  | symbol s =>
    -- a symbol that leaves a mark is an operator, and no operator has a quote or a brace in it
    have hPlain : ∀ s ∈ Token.punctuation, s ∉ separators →
        s.all (fun c => c != '"' && c != '\x7b') = true := by
      decide
    rw [Token.mark?] at hMark
    split at hMark
    · cases hMark
    · rename_i hOperator
      cases hMark
      show ∀ c ∈ (String.ofList s).toList, _
      rw [String.toList_ofList]
      simpa using hPlain s h hOperator

/-- All marks of a program that is derived from tokens can be written. -/
theorem Grammar.DerivesProgram.written {d : Dialect} {ts : List Token} {p : Program}
    (h : DerivesProgram d ts p) : ∀ mark ∈ p.marks, mark.Written := by
  intro mark hMark
  rw [← h.marks] at hMark
  obtain ⟨t, ht, hToken⟩ := List.mem_filterMap.mp hMark
  exact (h.formed t ht).written mark hToken

/-- Symbols are nothing that is written. -/
theorem Program.written_of_bare {p q : Program} (hBare : q.bare = p.bare)
    (h : ∀ mark ∈ p.marks, mark.Written) : ∀ mark ∈ q.marks, mark.Written := by
  -- taking the symbols off changes no word, and being written is about words only
  have hSame : ∀ mark : Mark, (mark.relabel id Ident.bare).Written ↔ mark.Written := by
    intro mark
    cases mark <;> exact Iff.rfl
  have hMarks := congrArg Program.marks hBare
  rw [Program.bare, Program.bare, Program.marks_relabel, Program.marks_relabel] at hMarks
  intro mark hMark
  have hMem := List.mem_map_of_mem (f := Mark.relabel id Ident.bare) hMark
  rw [hMarks] at hMem
  obtain ⟨mark', hMark', hEq⟩ := List.mem_map.mp hMem
  rw [← hSame, ← hEq, hSame]
  exact h mark' hMark'

/-! ## Expressions -/

/-- The group in braces goes, which is all that an identifier shows of its symbol. -/
theorem Ident.erases {id : Ident} (hName : isName id.name.toList = true) (hShown : id.Shown) :
    Erases (id.print true) (id.print false) := by
  rw [Ident.print_plain, Ident.print]
  cases hSymbol : id.symbol? with
  | none => exact .name hName
  | some symbol =>
    dsimp only
    split
    · exact .annotated hName (hShown symbol hSymbol)
    · exact .name hName

theorem Loc.erases (l : Loc) (hWritten : ∀ mark ∈ l.marks, mark.Written)
    (hShown : ∀ id ∈ l.idents, id.Shown) : Erases (l.print true) (l.print false) := by
  induction l with
  | var id =>
    exact Ident.erases (hWritten _ List.mem_cons_self) (hShown id List.mem_cons_self)
  | field left id ih =>
    obtain ⟨hLeft, hName⟩ := List.forall_mem_append.mp hWritten
    obtain ⟨hLeftShown, hNameShown⟩ := List.forall_mem_append.mp hShown
    have hId : Erases (id.print true) (id.print false) :=
      Ident.erases (hName _ (List.mem_cons_of_mem _ List.mem_cons_self))
        (hNameShown id List.mem_cons_self)
    rw [Loc.print, Loc.print]
    exact ((Erases.behind "(" rfl (ih hLeft hLeftShown)).before "):" rfl).append hId

/-- A number has nothing in it that erasing looks at. -/
theorem erases_number (n : Int) : Erases (Text.decimalText n) (Text.decimalText n) := by
  -- the digits and the sign are neither a quote nor a brace
  have hDigit : ∀ c : Char, c.isDigit = true → c ≠ '"' ∧ c ≠ '\x7b' := by
    intro c hc
    refine ⟨?_, ?_⟩ <;> rintro rfl <;> exact absurd hc (by decide)
  refine .plain ?_
  cases n with
  | ofNat n =>
    rw [Text.decimalText, String.toList_ofList]
    exact fun c hc => hDigit c (Text.toDigits_isDigit n c hc)
  | negSucc n =>
    rw [Text.decimalText, String.toList_ofList]
    exact List.forall_mem_cons.mpr
      ⟨by decide, fun c hc => hDigit c (Text.toDigits_isDigit (n + 1) c hc)⟩

mutual

/-- Printed with symbols and erased, an expression is what is printed without them. -/
theorem Expr.erases : (e : Expr) → (∀ mark ∈ e.marks, mark.Written) →
    (∀ id ∈ e.idents, id.Shown) → Erases (e.print true) (e.print false)
  | .trueLit _, _, _ | .falseLit _, _, _ => by
    rw [Expr.print, Expr.print]
    exact .copied _ rfl
  | .intLit _ value, _, _ => erases_number value
  | .strLit _ literal, hWritten, _ => .string (hWritten _ List.mem_cons_self)
  | .loc location, hWritten, hShown => location.erases hWritten hShown
  | .assign target value, hWritten, hShown => by
    obtain ⟨hTarget, hValue⟩ := List.forall_mem_append.mp hWritten
    obtain ⟨hTargetShown, hValueShown⟩ := List.forall_mem_append.mp hShown
    have hLeft := target.erases hTarget hTargetShown
    have hRight := Expr.erases value (List.forall_mem_cons.mp hValue).2 hValueShown
    rw [Expr.print, Expr.print]
    exact (((Erases.behind "(" rfl hLeft).before " = " rfl).append hRight).before ")" rfl
  -- the text in front of the list ends with a parenthesis, so no brace behind it is a group
  | .call callee args, hWritten, hShown => by
    obtain ⟨hCallee, hArgs⟩ := List.forall_mem_cons.mp hWritten
    obtain ⟨hCalleeShown, hArgsShown⟩ := List.forall_mem_cons.mp hShown
    have hList := Erases.intercalate ", " rfl (Expr.erasesAll args hArgs hArgsShown)
    rw [Expr.print, Expr.print]
    exact (((Ident.erases hCallee hCalleeShown).before "(" rfl).append hList).before ")" rfl
  | .unary op operand, hWritten, hShown => by
    obtain ⟨hOp, hOperand⟩ := List.forall_mem_cons.mp hWritten
    rw [Expr.print, Expr.print]
    exact ((Erases.behind "(" rfl (.plain hOp)).append
      (Expr.erases operand hOperand hShown)).before ")" rfl
  | .binary op left right, hWritten, hShown => by
    obtain ⟨hLeft, hBehind⟩ := List.forall_mem_append.mp hWritten
    obtain ⟨hOp, hRight⟩ := List.forall_mem_cons.mp hBehind
    obtain ⟨hLeftShown, hRightShown⟩ := List.forall_mem_append.mp hShown
    have hFirst := Expr.erases left hLeft hLeftShown
    have hSecond := Expr.erases right hRight hRightShown
    rw [Expr.print, Expr.print]
    -- both operands stand between plain texts, so the pieces are put together from the left
    have hOpening := (Erases.behind "(" rfl hFirst).before " " rfl
    exact (((hOpening.append (.plain hOp)).before " " rfl).append hSecond).before ")" rfl

theorem Expr.erasesAll : (es : List Expr) → (∀ mark ∈ Expr.marksAll es, mark.Written) →
    (∀ id ∈ Expr.identsAll es, id.Shown) →
    List.Forall₂ Erases (Expr.printAll true es) (Expr.printAll false es)
  | [], _, _ => .nil
  | e :: es, hWritten, hShown => by
    obtain ⟨hFirst, hOthers⟩ := List.forall_mem_append.mp hWritten
    obtain ⟨hFirstShown, hOthersShown⟩ := List.forall_mem_append.mp hShown
    rw [Expr.printAll, Expr.printAll]
    exact .cons (Expr.erases e hFirst hFirstShown) (Expr.erasesAll es hOthers hOthersShown)

end

/-! ## Lines -/

/-- Erasing makes the second lines of the first ones. -/
abbrev ErasesLines (shown plain : List String) : Prop :=
  List.Forall₂ Erases shown plain

/-- Lines that are erased piece by piece are erased as a whole. -/
theorem ErasesLines.flatMap {α : Type} {shown plain : α → List String} {xs : List α}
    (h : ∀ x ∈ xs, ErasesLines (shown x) (plain x)) :
    ErasesLines (xs.flatMap shown) (xs.flatMap plain) := by
  induction xs with
  | nil => exact .nil
  | cons x xs ih =>
    obtain ⟨hFirst, hOthers⟩ := List.forall_mem_cons.mp h
    exact List.rel_append hFirst (ih hOthers)

/-- A line with its indentation. -/
theorem erases_line {s u : String} (indent : Int) (h : Erases s u) :
    ErasesLines [indented indent s] [indented indent u] := by
  have hSpaces : ∀ c ∈ List.replicate indent.toNat ' ', c ≠ '"' ∧ c ≠ '\x7b' := by
    intro c hc
    rw [List.eq_of_mem_replicate hc]
    decide
  refine .cons (Erases.append (.plain ?_) h) .nil
  rw [String.toList_ofList]
  exact hSpaces

/-! ## Statements -/

theorem TypeRef.erases {type : TypeRef} (h : ∀ mark ∈ type.marks, mark.Written) :
    Erases type.print type.print := by
  have hBasic : ∀ name ∈ basicTypes, copied true name.toList = true := by decide
  rw [TypeRef.print]
  split
  · rename_i hName
    exact .copied _ (hBasic _ (List.contains_iff_mem.mp hName))
  · cases type with
    | boolean | integer | void => exact .copied _ rfl
    | struct id => exact .behind "struct " rfl (.name (h _ List.mem_cons_self))

/-- A type and a name, as in all declarations. -/
theorem erases_typed {type : TypeRef} {id : Ident}
    (h : ∀ mark ∈ type.marks ++ [.name id], mark.Written) :
    Erases (type.print ++ " " ++ id.name) (type.print ++ " " ++ id.name) := by
  obtain ⟨hType, hId⟩ := List.forall_mem_append.mp h
  exact ((TypeRef.erases hType).before " " rfl).append (.name (hId _ List.mem_cons_self))

theorem VarDecl.erases (d : VarDecl) (indent : Int) (h : ∀ mark ∈ d.marks, mark.Written) :
    ErasesLines (d.lines indent) (d.lines indent) :=
  erases_line indent ((erases_typed h).before "." rfl)

theorem varDecls_erase {ds : List VarDecl} (indent : Int)
    (h : ∀ mark ∈ ds.flatMap VarDecl.marks, mark.Written) :
    ErasesLines (ds.flatMap (VarDecl.lines indent)) (ds.flatMap (VarDecl.lines indent)) :=
  .flatMap fun d hd => d.erases indent fun mark hMark =>
    h mark (List.mem_flatMap.mpr ⟨d, hd, hMark⟩)

/-- The identifiers of shown parts are shown. -/
theorem usesOf_shown {spots : List Spot} (h : ∀ part ∈ usesOf spots, part.Shown) :
    ∀ id ∈ spots.flatMap Spot.used, id.Shown := by
  intro id hId
  obtain ⟨spot, hSpot, hUsed⟩ := List.mem_flatMap.mp hId
  exact h (.use spot) (List.mem_map_of_mem hSpot) id hUsed

/-- An expression whose uses are shown as they can be. -/
theorem Expr.erases_parts (e : Expr) (hWritten : ∀ mark ∈ e.marks, mark.Written)
    (hShown : ∀ part ∈ usesOf e.spots, part.Shown) : Erases (e.print true) (e.print false) :=
  e.erases hWritten (e.used_spots ▸ usesOf_shown hShown)

/-- Of the parts of a block, those of its statements. -/
theorem nested_shown {decls : List VarDecl} {parts : List Part}
    (h : ∀ part ∈ nested (decls.map .var ++ parts), part.Shown) : ∀ part ∈ parts, part.Shown :=
  fun part hPart => h part (List.mem_cons_of_mem _ (List.mem_append_left _
    (List.mem_append_right _ hPart)))

/-- The lines of the statements are erased, whatever their indentation. -/
def StmtsErase (stmts : List Stmt) : Prop :=
  ∀ indent, (∀ mark ∈ Stmt.marksAll stmts, mark.Written) →
    (∀ part ∈ Stmt.partsAll stmts, part.Shown) →
    ErasesLines (Stmt.linesAll true indent stmts) (Stmt.linesAll false indent stmts)

/-- A condition and the body that it guards, up to the last brace of the body. -/
theorem guarded_erases {cond : Expr} {decls : List VarDecl} {stmts : List Stmt} (indent : Int)
    (opening : String) (hOpening : copied true opening.toList = true) (hStmts : StmtsErase stmts)
    (hWritten : ∀ mark ∈ cond.marks ++ (decls.flatMap VarDecl.marks ++ Stmt.marksAll stmts),
      mark.Written)
    (hCondShown : ∀ part ∈ usesOf cond.spots, part.Shown)
    (hBodyShown : ∀ part ∈ nested (decls.map .var ++ Stmt.partsAll stmts), part.Shown) :
    ErasesLines
      ([indented indent (opening ++ cond.print true ++ ") \x7b")]
        ++ decls.flatMap (VarDecl.lines (indent + indentStep))
        ++ Stmt.linesAll true (indent + indentStep) stmts)
      ([indented indent (opening ++ cond.print false ++ ") \x7b")]
        ++ decls.flatMap (VarDecl.lines (indent + indentStep))
        ++ Stmt.linesAll false (indent + indentStep) stmts) := by
  -- the condition stands in the first line; the rest is erased line by line
  obtain ⟨hCond, hBody⟩ := List.forall_mem_append.mp hWritten
  obtain ⟨hDecls, hMarks⟩ := List.forall_mem_append.mp hBody
  have hFirst := (Erases.behind opening hOpening (cond.erases_parts hCond hCondShown)).before
    ") \x7b" rfl
  exact List.rel_append (List.rel_append (erases_line indent hFirst)
    (varDecls_erase (indent + indentStep) hDecls)) (hStmts _ hMarks (nested_shown hBodyShown))

/-- The closing line of a body has nothing to erase. -/
theorem erases_brace (indent : Int) :
    ErasesLines [indented indent "\x7d"] [indented indent "\x7d"] :=
  erases_line indent (.copied _ rfl)

mutual

/-- Printed with symbols and erased, the lines of a statement are those without symbols. -/
theorem Stmt.erases : (s : Stmt) → (indent : Int) → (∀ mark ∈ s.marks, mark.Written) →
    (∀ part ∈ s.parts, part.Shown) → ErasesLines (s.lines true indent) (s.lines false indent)
  | .assign target value, indent, hWritten, hShown => by
    obtain ⟨hTarget, hValue⟩ := List.forall_mem_append.mp hWritten
    obtain ⟨hTargetShown, hValueShown⟩ := List.forall_mem_cons.mp hShown
    have hLeft := target.erases hTarget hTargetShown
    have hRight := value.erases_parts (List.forall_mem_cons.mp hValue).2 hValueShown
    rw [Stmt.lines, Stmt.lines]
    exact erases_line indent (((hLeft.before " = " rfl).append hRight).before "." rfl)
  | .increment target, indent, hWritten, hShown | .decrement target, indent, hWritten, hShown => by
    have hTarget := target.erases (List.forall_mem_append.mp hWritten).1
      (hShown _ List.mem_cons_self)
    rw [Stmt.lines, Stmt.lines]
    exact erases_line indent (hTarget.before _ rfl)
  | .read target, indent, hWritten, hShown => by
    have hTarget := target.erases (List.forall_mem_cons.mp hWritten).2
      (hShown _ List.mem_cons_self)
    rw [Stmt.lines, Stmt.lines]
    exact erases_line indent ((Erases.behind "input -> " rfl hTarget).before "." rfl)
  | .write value, indent, hWritten, hShown => by
    have hValue := value.erases_parts (List.forall_mem_cons.mp hWritten).2 hShown
    rw [Stmt.lines, Stmt.lines]
    exact erases_line indent ((Erases.behind _ rfl hValue).before _ rfl)
  | .call callee args, indent, hWritten, hShown => by
    have hCall := Expr.erases_parts (.call callee args) hWritten hShown
    rw [Stmt.lines, Stmt.lines]
    exact erases_line indent (hCall.before "." rfl)
  | .ret none, indent, _, _ => by
    rw [Stmt.lines, Stmt.lines]
    exact erases_line indent (.copied _ rfl)
  | .ret (some value), indent, hWritten, hShown => by
    have hValue := value.erases_parts hWritten hShown
    rw [Stmt.lines, Stmt.lines]
    exact erases_line indent ((Erases.behind _ rfl hValue).before _ rfl)
  -- a loop differs from a branch in the first word only
  | .ifThen cond ⟨decls, stmts⟩, indent, hWritten, hShown
  | .loop cond ⟨decls, stmts⟩, indent, hWritten, hShown => by
    obtain ⟨hCondShown, hBodyShown⟩ := List.forall_mem_append.mp hShown
    rw [Stmt.lines, Stmt.lines]
    exact List.rel_append
      (guarded_erases indent _ rfl (Stmt.linesAll_erase stmts) hWritten hCondShown hBodyShown)
      (erases_brace indent)
  -- the second body stands between the line of the else and a closing brace
  | .ifElse cond ⟨decls, stmts⟩ ⟨elseDecls, elseStmts⟩, indent, hWritten, hShown => by
    obtain ⟨hThen, hElse⟩ := List.forall_mem_append.mp hWritten
    obtain ⟨hElseDecls, hElseStmts⟩ := List.forall_mem_append.mp hElse
    obtain ⟨hCondShown, hBodies⟩ := List.forall_mem_append.mp hShown
    obtain ⟨hThenShown, hElseShown⟩ := List.forall_mem_append.mp hBodies
    have hFirst := guarded_erases indent "if (" rfl (Stmt.linesAll_erase stmts) hThen
      hCondShown hThenShown
    have hBetween := List.rel_append (erases_brace indent)
      (erases_line indent (.copied "else \x7b" rfl))
    rw [Stmt.lines, Stmt.lines]
    exact List.rel_append (List.rel_append (List.rel_append (List.rel_append hFirst hBetween)
      (varDecls_erase (indent + indentStep) hElseDecls))
      (Stmt.linesAll_erase elseStmts _ hElseStmts (nested_shown hElseShown))) (erases_brace indent)

theorem Stmt.linesAll_erase : (ss : List Stmt) → StmtsErase ss
  | [] => fun _ _ _ => .nil
  | s :: ss => fun indent hWritten hShown => by
    obtain ⟨hFirst, hOthers⟩ := List.forall_mem_append.mp hWritten
    obtain ⟨hFirstShown, hOthersShown⟩ := List.forall_mem_append.mp hShown
    rw [Stmt.linesAll, Stmt.linesAll]
    exact List.rel_append (Stmt.erases s indent hFirst hFirstShown)
      (Stmt.linesAll_erase ss indent hOthers hOthersShown)

end

/-! ## Programs -/

/-- The end of a declaration. -/
theorem erases_bracket (indent : Int) :
    ErasesLines ([indented indent "]"] ++ [""]) ([indented indent "]"] ++ [""]) :=
  List.rel_append (erases_line indent (.copied "]" rfl)) (.cons (.copied "" rfl) .nil)

/-- Erasing the lines of a function: its head has no symbols, its body may have some. -/
theorem FuncDecl.erases (f : FuncDecl) (indent : Int) (hWritten : ∀ mark ∈ f.marks, mark.Written)
    (hShown : ∀ part ∈ f.parts, part.Shown) :
    ErasesLines (f.lines true indent) (f.lines false indent) := by
  obtain ⟨hSignature, hBody⟩ := List.forall_mem_append.mp hWritten
  obtain ⟨hHead, hFormals⟩ := List.forall_mem_append.mp hSignature
  obtain ⟨hDecls, hStmts⟩ := List.forall_mem_append.mp hBody
  -- where the statements stand among the parts of a function: behind the scope and the declarations
  have hStmtsShown : ∀ part ∈ Stmt.partsAll f.body.stmts, part.Shown := fun part hPart =>
    hShown part (List.mem_cons_of_mem _ (List.mem_cons_of_mem _ (List.mem_append_left _
      (List.mem_append_right _ (List.mem_append_right _ hPart)))))
  -- the formals are printed in one line, joined with commas
  have hList : List.Forall₂ Erases (f.formals.map Formal.print) (f.formals.map Formal.print) := by
    rw [List.forall₂_map_left_iff, List.forall₂_map_right_iff, List.forall₂_same]
    exact fun formal hFormal => erases_typed fun mark hMark =>
      hFormals mark (List.mem_flatMap.mpr ⟨formal, hFormal, hMark⟩)
  have hFirst := (((erases_typed hHead).before "[" rfl).append
    (Erases.intercalate ", " rfl hList)).before "] [" rfl
  rw [FuncDecl.lines, FuncDecl.lines, Block.lines, Block.lines]
  exact List.rel_append (List.rel_append (erases_line indent hFirst)
    (List.rel_append (varDecls_erase (indent + indentStep) hDecls)
      (Stmt.linesAll_erase _ _ hStmts hStmtsShown))) (erases_bracket indent)

theorem StructDecl.erases (s : StructDecl) (indent : Int)
    (hWritten : ∀ mark ∈ s.marks, mark.Written) :
    ErasesLines (s.lines indent) (s.lines indent) := by
  obtain ⟨hName, hFields⟩ := List.forall_mem_cons.mp hWritten
  have hFirst := (Erases.behind "struct " rfl (.name hName)).before " [" rfl
  exact List.rel_append (List.rel_append (erases_line indent hFirst)
    (varDecls_erase (indent + indentStep) hFields)) (erases_bracket indent)

/-- Printed with symbols and erased, the lines of a declaration are those without symbols. -/
theorem Decl.erases (d : Decl) (indent : Int) (hWritten : ∀ mark ∈ d.marks, mark.Written)
    (hShown : ∀ part ∈ d.parts, part.Shown) :
    ErasesLines (d.lines true indent) (d.lines false indent) := by
  cases d with
  | var d =>
    exact d.erases indent hWritten
  | func f => exact f.erases indent hWritten hShown
  | struct s => exact s.erases indent hWritten

/-- The text with annotations becomes the one without. -/
theorem Program.erases (p : Program) (hWritten : ∀ mark ∈ p.marks, mark.Written)
    (hShown : ∀ part ∈ p.parts, part.Shown) : Erases (p.print true) (p.print false) := by
  have hLines : ErasesLines (p.lines true 0) (p.lines false 0) := .flatMap fun d hd =>
    d.erases 0 (fun mark hMark => hWritten mark (List.mem_flatMap.mpr ⟨d, hd, hMark⟩))
      fun part hPart => hShown part (List.mem_flatMap.mpr ⟨d, hd, hPart⟩)
  rw [Program.print, Program.print]
  exact (Erases.intercalate "\n" rfl hLines).before "\n" rfl

/-! ## Analyzed programs -/

/-- A tree that is read carries no symbols: without them it is the tree of the same tokens. -/
theorem Grammar.DerivesProgram.bare_eq {ts : List Token} {p : Program}
    (h : DerivesProgram .ordered ts p) : p.bare = p := by
  -- relabelling with what takes the symbols off leaves tokens alone: they have none
  have hTokens : ts.map (Token.relabel id Ident.bare) = ts := by
    refine (List.map_congr_left fun t _ => ?_).trans (List.map_id ts)
    cases t <;> rfl
  -- so the bare program is derived from the same tokens, and tokens determine the tree
  have hNames : KeepsNames Ident.bare := fun _ hName _ => ⟨hName, rfl⟩
  have hBare : DerivesProgram .ordered (ts.map (Token.relabel id Ident.bare)) p.bare :=
    h.relabel id hNames h.admitted
  rw [hTokens] at hBare
  exact Program.eq_of_marks (hBare.unplaced_eq h rfl) (hBare.marks.symm.trans h.marks)

/-- **Annotations only add.** An analysis of a program that is read from a source does not fail.
Printed with its symbols and without them, the program is one text, but for the groups in braces
behind its names; and that text is the one that was printed before the analysis. -/
theorem annotations_erasable (a : Analyzer) {source : String} {p : Program}
    (h : parse source = .ok p) :
    ∃ q b, a.analyze p = .ok (q, b) ∧ eraseAnnotations (q.print true) = q.print false ∧
      q.print false = p.print true ∧ p.print false = p.print true := by
  obtain ⟨ts, rest, -, -, hDerives⟩ := parse_reads h
  have hNames : ∀ id ∈ p.idents, Braceless id.name := by
    intro id hId hBrace
    obtain ⟨-, hAll, -⟩ := isName_iff.mp (DerivesProgram.names hDerives id hId).1
    exact (nameChar_plain (hAll _ hBrace)).2.2 rfl
  have hFresh : p.Fresh := fun id hId => (DerivesProgram.names hDerives id hId).2
  obtain ⟨q, b, hAnalyze, hShown⟩ := analyze_shows a hNames
  obtain ⟨q', b', hAnalyze', hBare, -⟩ := analyze_settles a hFresh
  rw [hAnalyze] at hAnalyze'
  cases hAnalyze'
  -- before the analysis there are no symbols to be shown
  have hBefore : p.print true = p.print false := by
    have hPlain := p.print_bare true
    rwa [DerivesProgram.bare_eq hDerives] at hPlain
  have hAfter : q.print false = p.print false := by
    rw [← q.print_bare false, hBare, p.print_bare]
  have hWritten := Program.written_of_bare hBare (DerivesProgram.written hDerives)
  exact ⟨q, b, hAnalyze, (q.erases hWritten hShown).erase, hAfter.trans hBefore.symm, hBefore.symm⟩

/-- Whether a source is a program that is shown as `shown` after an analysis, and as `plain`
without annotations. -/
def showsAs (source shown plain : String) : Bool :=
  match parse source with
  | .ok p =>
    match Analyzer.new.analyze p with
    | .ok (q, _) => q.print true == shown && q.print false == plain
    | .error _ => false
  | .error _ => false

/-- The check that can be run says what it is meant to say. -/
theorem showsAs_iff {source shown plain : String} :
    showsAs source shown plain = true ↔
      ∃ p q b, parse source = .ok p ∧ Analyzer.new.analyze p = .ok (q, b) ∧
        q.print true = shown ∧ q.print false = plain := by
  rw [showsAs]
  cases parse source with
  | error e => simp
  | ok p =>
    cases hAnalyze : Analyzer.new.analyze p with
    | error e => simp [hAnalyze]
    | ok answer =>
      obtain ⟨q, b⟩ := answer
      simp [hAnalyze]

/-- A field, a function and formals are annotated in a block whose string looks like annotations;
one name is not declared. -/
theorem braces_in_string_erased :
    ∃ p q b, parse ("struct S [ integer n. ] struct S v. integer f[struct S s, boolean b] " ++
        "[ if (b) \x7b v:n = f(v, b). u = \"x\x7b\\\"\x7d\". \x7d ]") = .ok p ∧
      Analyzer.new.analyze p = .ok (q, b) ∧
      q.print true = "struct S [\n    integer n.\n]\n\nstruct S v.\n" ++
        "integer f[struct S s, boolean b] [\n    if (b\x7bboolean\x7d) \x7b\n" ++
        "        (v\x7bS\x7d):n\x7binteger\x7d = " ++
        "f\x7bS, boolean -> integer\x7d(v\x7bS\x7d, b\x7bboolean\x7d).\n" ++
        "        u = \"x\x7b\\\"\x7d\".\n    \x7d\n]\n\n" ∧
      eraseAnnotations (q.print true) = q.print false ∧ q.print false = p.print true := by
  have hSeen : showsAs ("struct S [ integer n. ] struct S v. integer f[struct S s, boolean b] " ++
        "[ if (b) \x7b v:n = f(v, b). u = \"x\x7b\\\"\x7d\". \x7d ]")
      ("struct S [\n    integer n.\n]\n\nstruct S v.\n" ++
        "integer f[struct S s, boolean b] [\n    if (b\x7bboolean\x7d) \x7b\n" ++
        "        (v\x7bS\x7d):n\x7binteger\x7d = " ++
        "f\x7bS, boolean -> integer\x7d(v\x7bS\x7d, b\x7bboolean\x7d).\n" ++
        "        u = \"x\x7b\\\"\x7d\".\n    \x7d\n]\n\n")
      ("struct S [\n    integer n.\n]\n\nstruct S v.\n" ++
        "integer f[struct S s, boolean b] [\n    if (b) \x7b\n" ++
        "        (v):n = f(v, b).\n" ++
        "        u = \"x\x7b\\\"\x7d\".\n    \x7d\n]\n\n") = true := by
    decide +kernel
  obtain ⟨p, q, b, hRead, hAnalyze, hShown, -⟩ := showsAs_iff.mp hSeen
  -- the theorem gives an answer of its own, which is the one that was seen
  obtain ⟨q', b', hAnalyze', hErased, hBefore, -⟩ := annotations_erasable Analyzer.new hRead
  rw [hAnalyze] at hAnalyze'
  cases hAnalyze'
  exact ⟨p, q, b, hRead, hAnalyze, hShown, hErased, hBefore⟩

end NameResolution
