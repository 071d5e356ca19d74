import NameResolution.Proofs.Grammar.Commas
import NameResolution.Proofs.Grammar.Conservation
import NameResolution.Proofs.Grammar.Layout
import NameResolution.Proofs.Grammar.ReadingProgram
import NameResolution.Proofs.Tree.Parts

/-!
# Soundness — what an accepted text has to do with its tree

Everything in an accepted text is a token or trivia, and every name, literal and operator in its
tokens is in the tree. The tokens derive the tree by the rules of the context-free grammar, except
where a list starts with a comma.

* `DerivesProgram.names`, `DerivesProgram.sound` — the names and declarations of a derived tree.
* `parse_conserves` — all of it, for every accepted text.
-/

namespace NameResolution.Grammar

variable {d : Dialect} {ts us : List Token}

/-! ## Names -/

/-- The names of a derived tree are names of the language, and carry no symbol yet. -/
theorem DerivesProgram.names {p : Program} (h : DerivesProgram d ts p) :
    ∀ id ∈ p.idents, isName id.name.toList = true ∧ id.symbol? = none := by
  intro id hId
  rw [← p.marks_idents, ← h.marks, marksOf, List.filterMap_filterMap] at hId
  obtain ⟨t, ht, hMark⟩ := List.mem_filterMap.mp hId
  -- only a token that is a name becomes one
  have hForm := h.formed t ht
  cases t with
  | name pos word =>
    cases hMark
    exact ⟨hForm, rfl⟩
  | symbol s =>
    obtain ⟨mark, hMark, hName⟩ := Option.bind_eq_some_iff.mp hMark
    rw [Token.mark?] at hMark
    split at hMark <;> cases hMark
    cases hName
  | keyword | truth | number | string => cases hMark

/-! ## Declarations -/

/-- A struct has fields, and they alone are marked as such. -/
def Part.Sound (part : Part) : Prop :=
  (∀ v ∈ part.vars, v.isField = false) ∧
    ∀ s ∈ part.structs, s.fields ≠ [] ∧ ∀ v ∈ s.fields, v.isField = true

theorem usesOf_sound (spots : List Spot) : ∀ part ∈ usesOf spots, Part.Sound part := by
  rw [usesOf, List.forall_mem_map]
  exact fun _ _ => ⟨List.forall_mem_nil _, List.forall_mem_nil _⟩

/-- A scope of sound parts has sound parts. -/
theorem nested_sound {parts : List Part} (h : ∀ part ∈ parts, Part.Sound part) :
    ∀ part ∈ nested parts, Part.Sound part := by
  rw [nested, List.forall_mem_cons, List.forall_mem_append, List.forall_mem_singleton]
  have hNothing : ∀ part : Part, part.vars = [] → part.structs = [] → Part.Sound part := by
    intro part hVariables hStructs
    rw [Part.Sound, hVariables, hStructs]
    exact ⟨List.forall_mem_nil _, List.forall_mem_nil _⟩
  exact ⟨hNothing _ rfl rfl, h, hNothing _ rfl rfl⟩

theorem var_sound {v : VarDecl} (h : v.isField = false) : Part.Sound (.var v) :=
  ⟨List.forall_mem_singleton.mpr h, List.forall_mem_nil _⟩

/-- What is derived as a declaration of a variable is no field. -/
theorem DerivesVarDecl.variable {v : VarDecl} (h : DerivesVarDecl ts v) : v.isField = false := by
  cases h
  rfl

theorem varDecls_variable {decls : List VarDecl} (h : Rows DerivesVarDecl ts decls) :
    ∀ v ∈ decls, v.isField = false := by
  obtain ⟨rows, hRows, -, rfl⟩ := h
  rw [List.forall_mem_map]
  exact fun row hRow => (hRows row hRow).variable

theorem vars_sound {decls : List VarDecl} (h : Rows DerivesVarDecl ts decls) :
    ∀ part ∈ decls.map Part.var, Part.Sound part :=
  List.forall_mem_map.mpr fun v hv => var_sound (varDecls_variable h v hv)

/-- The parts of the locals of a function are sound. -/
theorem localParts_sound {decls : List VarDecl} (h : ∀ v ∈ decls, v.isField = false)
    (seen : List String) : ∀ part ∈ localParts seen decls, Part.Sound part := by
  induction decls generalizing seen with
  | nil => exact List.forall_mem_nil _
  | cons v decls ih =>
    obtain ⟨hFirst, hOthers⟩ := List.forall_mem_cons.mp h
    rw [localParts, List.forall_mem_cons]
    refine ⟨?_, ih hOthers _⟩
    split
    · exact ⟨List.forall_mem_singleton.mpr hFirst, List.forall_mem_nil _⟩
    · exact var_sound hFirst

/-- The parts of a statement are sound. -/
theorem DerivesStmt.sound {s : Stmt} (h : DerivesStmt d ts s) :
    ∀ part ∈ s.parts, Part.Sound part := by
  -- the statements of a body, behind its declarations
  have hBody : ∀ {us : List Token} {decls : List VarDecl} {stmts : List (List Token × Stmt)},
      Rows DerivesVarDecl us decls → (∀ s ∈ stmts, ∀ part ∈ s.2.parts, Part.Sound part) →
      ∀ part ∈ nested (decls.map .var ++ Stmt.partsAll (stmts.map (·.2))), Part.Sound part := by
    intro us decls stmts hDecls hStmts
    refine nested_sound (List.forall_mem_append.mpr ⟨vars_sound hDecls, ?_⟩)
    rw [Stmt.partsAll_eq_flatMap, List.flatMap_map, List.forall_mem_flatMap]
    exact hStmts
  induction h with
  | ifThen _ hDecls stmts _ ih | loop _ hDecls stmts _ ih =>
    rw [Stmt.parts, List.forall_mem_append]
    exact ⟨usesOf_sound _, hBody hDecls ih⟩
  | ifElse _ hDecls stmts _ hDecls' stmts' _ ih ih' =>
    rw [Stmt.parts, List.forall_mem_append, List.forall_mem_append]
    exact ⟨usesOf_sound _, hBody hDecls ih, hBody hDecls' ih'⟩
  | read | increment | decrement => exact usesOf_sound [.location _]
  | write | retSome => exact usesOf_sound _
  | retNone => exact List.forall_mem_nil _
  | call => exact usesOf_sound (.callee _ :: _)
  | assign => exact usesOf_sound (.location _ :: _)

/-- The parts of a declaration are sound: a struct has fields, and only those are marked as
fields. -/
theorem DerivesDecl.sound {decl : Decl} (h : DerivesDecl d ts decl) :
    ∀ part ∈ decl.parts, Part.Sound part := by
  cases h with
  | @struct _ _ id fields _ _ hSome =>
    rw [Decl.parts, List.forall_mem_singleton]
    -- a struct that is derived has at least one field
    refine ⟨List.forall_mem_nil _, List.forall_mem_singleton.mpr ⟨?_, ?_⟩⟩
    · simpa using hSome
    · rw [List.forall_mem_map]
      exact fun _ _ => rfl
  | func _ _ formals _ _ hDecls hStmts =>
    obtain ⟨rows, hRows, -, rfl⟩ := hStmts
    rw [Decl.parts, FuncDecl.parts, List.forall_mem_cons]
    -- a function opens a scope with its formals, its locals and its statements
    refine ⟨⟨List.forall_mem_nil _, List.forall_mem_nil _⟩, nested_sound ?_⟩
    rw [List.forall_mem_append, List.forall_mem_append, List.forall_mem_map,
      Stmt.partsAll_eq_flatMap, List.flatMap_map, List.forall_mem_flatMap]
    exact ⟨fun _ _ => ⟨List.forall_mem_nil _, List.forall_mem_nil _⟩,
      localParts_sound (varDecls_variable hDecls) [], fun row hRow => (hRows row hRow).sound⟩
  | var hDecl =>
    rw [Decl.parts, List.forall_mem_singleton]
    exact var_sound hDecl.variable

/-- The parts of a program that is derived from tokens are sound. -/
theorem DerivesProgram.sound {p : Program} (h : DerivesProgram d ts p) :
    ∀ part ∈ p.parts, Part.Sound part := by
  obtain ⟨rows, hRows, -, hDecls⟩ := h
  rw [Program.parts, hDecls, List.flatMap_map, List.forall_mem_flatMap]
  exact fun row hRow => (hRows row hRow).sound

/-! ## Accepted texts -/

/-- The visible characters of a text are those of the tokens that it consists of. -/
theorem LaidOut.visible {cs : List Char} (h : LaidOut ts cs) (hForm : Formed ts) :
    Grammar.visible .code cs = ts.flatMap Token.visible := by
  obtain ⟨rest, hCut, hEnd⟩ := h.cut hForm
  rw [hCut.visible hForm, ← visible_skipTrivia rest, hEnd, Grammar.visible, List.append_nil]

/-- **Conservation.** An accepted text consists of tokens and trivia, and the names, literals and
operators among the tokens are those of the tree, in the same order. The tokens derive the tree in
the context-free grammar unless a list in the text starts with a comma; a text with such a list is
accepted and is no sentence of that grammar, however it is cut. Every name of the tree is one of the
language, every struct has fields, and exactly these are marked as fields. -/
theorem parse_conserves {source : String} {p : Program} (h : parse source = .ok p) :
    (∃ ts, LaidOut ts source.toList ∧ DerivesProgram .ordered ts p ∧ marksOf ts = p.marks ∧
      (¬ Led (visible .code source.toList) → DerivesProgram .contextFree ts p)) ∧
    (Led (visible .code source.toList) →
      ∀ ts q, LaidOut ts source.toList → ¬ DerivesProgram .contextFree ts q) ∧
    (∀ id ∈ p.idents, isName id.name.toList = true) ∧
    (∀ s ∈ p.structs, s.fields ≠ []) ∧
    (∀ v ∈ p.fields, v.isField = true) ∧ ∀ v ∈ p.vars, v.isField = false := by
  obtain ⟨ts, rest, hCut, hEnd, hDerives⟩ := parse_reads h
  -- what the reader has skipped between the tokens is trivia
  have hLaid := hCut.laidOut hEnd
  have hSound := hDerives.sound
  refine ⟨⟨ts, hLaid, hDerives, hDerives.marks, ?_⟩, ?_, fun id hId => (hDerives.names id hId).1,
    ?_, ?_, ?_⟩
  · intro hLed
    rw [hLaid.visible hDerives.formed] at hLed
    exact hDerives.contextFree hLed
  · -- whatever the tokens are, the text shows their characters
    intro hLed us q hOther hFree
    rw [hOther.visible hFree.formed] at hLed
    exact hFree.not_led hLed
  · intro s hs
    obtain ⟨part, hPart, hMem⟩ := List.mem_flatMap.mp hs
    exact ((hSound part hPart).2 s hMem).1
  · intro v hv
    obtain ⟨part, hPart, hMem⟩ := List.mem_flatMap.mp hv
    obtain ⟨s, hs, hField⟩ := List.mem_flatMap.mp hMem
    exact ((hSound part hPart).2 s hs).2 v hField
  · intro v hv
    obtain ⟨part, hPart, hMem⟩ := List.mem_flatMap.mp hv
    exact (hSound part hPart).1 v hMem

/-- What is seen of the outcome shows that there is a tree. -/
theorem exists_of_seen {α : Type} {source : String} {view : Program → α} {x : α}
    (h : (parse source).toOption.map view = some x) : ∃ p, parse source = .ok p ∧ view p = x := by
  cases hParse : parse source with
  | ok p =>
    rw [hParse] at h
    exact ⟨p, rfl, Option.some.inj h⟩
  | error e =>
    rw [hParse] at h
    cases h

/-- Words and symbols that are read as more tokens than they look like: `integer` in front of an
underscore, `return` likewise, `<` in front of a sign, and two signs. -/
def closeTokens : String :=
  "integer_x. struct P [struct P p.] void f[integer a] [return_ = a<-b:p*--07. #\n]"

/-- A text whose lists start with no comma is a sentence of the context-free grammar. -/
theorem closeTokens_conserved :
    ∃ p, parse closeTokens = .ok p ∧
      p.idents.map Ident.name = ["_x", "P", "P", "p", "f", "a", "_", "a", "b", "p"] ∧
      ¬ Led (visible .code closeTokens.toList) ∧
      ∃ ts, LaidOut ts closeTokens.toList ∧ DerivesProgram .contextFree ts p ∧
        marksOf ts = p.marks := by
  have hSeen : (parse closeTokens).toOption.map (fun p => p.idents.map Ident.name) =
      some ["_x", "P", "P", "p", "f", "a", "_", "a", "b", "p"] := by
    decide +kernel
  obtain ⟨p, hRead, hNames⟩ := exists_of_seen hSeen
  have hLed : ¬ Led (visible .code closeTokens.toList) := by decide +kernel
  obtain ⟨⟨ts, hLaid, -, hMarks, hFree⟩, -⟩ := parse_conserves hRead
  exact ⟨p, hRead, hNames, hLed, ts, hLaid, hFree hLed, hMarks⟩

/-- A function with a comma in front of its only parameter. -/
def leadingComma : String := "void f[,integer a][]"

/-- A list may start with a comma: then no tokens of the text derive its tree in the context-free
grammar. -/
theorem leadingComma_no_sentence :
    ∃ p, parse leadingComma = .ok p ∧
      ∀ ts, LaidOut ts leadingComma.toList → ¬ DerivesProgram .contextFree ts p := by
  have hSeen : (parse leadingComma).toOption.map (fun p => p.idents.map Ident.name) =
      some ["f", "a"] := by
    decide +kernel
  obtain ⟨p, hRead, -⟩ := exists_of_seen hSeen
  have hLed : Led (visible .code leadingComma.toList) := by decide +kernel
  refine ⟨p, hRead, fun ts hLaid hFree => ?_⟩
  rw [hLaid.visible hFree.formed] at hLed
  exact hFree.not_led hLed

end NameResolution.Grammar
