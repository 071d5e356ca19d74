import NameResolution.Proofs.Tree.Relabel
import NameResolution.Proofs.Tree.Sites

/-!
# Leads — the names that expressions and statements begin with

Where an operand of an expression is expected, it can be a literal as well as a name, and where a
statement is expected, it can be a `return` as well. So these names are not free to look like
anything: they are the leads of a program. The target of an assignment inside an expression is none
of them, and neither is what is read, incremented or decremented.

* `Lead`, `Program.leads` — the leads and the places at which they stand.
* `Program.leads_idents`, `Program.leads_relabel` — leads are identifiers, and are relabelled as
  such.
-/

namespace NameResolution

/-- The place of a name that something begins with. -/
inductive Lead where
  /-- A variable or a call as an operand. -/
  | operand
  /-- An assignment or a call as a statement. -/
  | opening
deriving DecidableEq, Repr

/-! ## Leads of a program -/

mutual

/-- The lead of every operand that starts with a name, from the left. -/
def Expr.leads : Expr → List (Lead × Ident)
  | .trueLit _ | .falseLit _ | .intLit _ _ | .strLit _ _ => []
  | .loc location => [(.operand, location.root)]
  | .assign _ value => value.leads
  | .call callee args => (.operand, callee) :: Expr.leadsAll args
  | .unary _ operand => operand.leads
  | .binary _ left right => left.leads ++ right.leads

def Expr.leadsAll : List Expr → List (Lead × Ident)
  | [] => []
  | e :: es => e.leads ++ Expr.leadsAll es

end

mutual

/-- The leads of a statement. An assignment and a call open with a name. -/
def Stmt.leads : Stmt → List (Lead × Ident)
  | .assign target value => (.opening, target.root) :: value.leads
  | .increment _ | .decrement _ | .read _ => []
  | .ifThen cond ⟨_, stmts⟩ | .loop cond ⟨_, stmts⟩ => cond.leads ++ Stmt.leadsAll stmts
  | .ifElse cond ⟨_, stmts⟩ ⟨_, elseStmts⟩ =>
    cond.leads ++ Stmt.leadsAll stmts ++ Stmt.leadsAll elseStmts
  | .write value => value.leads
  | .call callee args => (.opening, callee) :: Expr.leadsAll args
  | .ret none => []
  | .ret (some value) => value.leads

def Stmt.leadsAll : List Stmt → List (Lead × Ident)
  | [] => []
  | s :: ss => s.leads ++ Stmt.leadsAll ss

end

/-- Only the body of a function has leads. -/
def Decl.leads : Decl → List (Lead × Ident)
  | func decl => Stmt.leadsAll decl.body.stmts
  | var _ | struct _ => []

/-- Every lead of a program, with its place. -/
def Program.leads (p : Program) : List (Lead × Ident) :=
  p.decls.flatMap Decl.leads

theorem Expr.leadsAll_eq_flatMap (es : List Expr) : Expr.leadsAll es = es.flatMap Expr.leads := by
  induction es with
  | nil => rfl
  | cons e es ih => rw [Expr.leadsAll, ih, List.flatMap_cons]

theorem Stmt.leadsAll_eq_flatMap (ss : List Stmt) : Stmt.leadsAll ss = ss.flatMap Stmt.leads := by
  induction ss with
  | nil => rfl
  | cons s ss ih => rw [Stmt.leadsAll, ih, List.flatMap_cons]

/-! ## Leads are identifiers -/

/-- The variable a chain starts with is one of its identifiers. -/
theorem Loc.root_mem (l : Loc) : l.root ∈ l.idents := by
  induction l with
  | var id => exact List.mem_singleton_self id
  | field left id ih => exact List.mem_append_left _ ih

mutual

/-- A lead is an identifier of its expression. -/
theorem Expr.leads_idents : (e : Expr) → ∀ lead ∈ e.leads, lead.2 ∈ e.idents
  | .trueLit _ | .falseLit _ | .intLit _ _ | .strLit _ _ => List.forall_mem_nil _
  | .loc location => List.forall_mem_singleton.mpr location.root_mem
  -- the target is no lead, but its names come first
  | .assign _ value => fun lead hLead =>
    List.mem_append_right _ (Expr.leads_idents value lead hLead)
  | .call _ args =>
    List.forall_mem_cons.mpr ⟨List.mem_cons_self, fun lead hLead =>
      List.mem_cons_of_mem _ (Expr.leadsAll_idents args lead hLead)⟩
  | .unary _ operand => Expr.leads_idents operand
  | .binary _ left right =>
    List.forall_mem_append.mpr
      ⟨fun lead hLead => List.mem_append_left _ (Expr.leads_idents left lead hLead),
        fun lead hLead => List.mem_append_right _ (Expr.leads_idents right lead hLead)⟩

theorem Expr.leadsAll_idents :
    (es : List Expr) → ∀ lead ∈ Expr.leadsAll es, lead.2 ∈ Expr.identsAll es
  | [] => List.forall_mem_nil _
  | e :: es =>
    List.forall_mem_append.mpr
      ⟨fun lead hLead => List.mem_append_left _ (Expr.leads_idents e lead hLead),
        fun lead hLead => List.mem_append_right _ (Expr.leadsAll_idents es lead hLead)⟩

end

mutual

/-- A lead is an identifier of its statement. -/
theorem Stmt.leads_idents : (s : Stmt) → ∀ lead ∈ s.leads, lead.2 ∈ s.idents
  | .assign target value =>
    List.forall_mem_cons.mpr ⟨List.mem_append_left _ target.root_mem, fun lead hLead =>
      List.mem_append_right _ (value.leads_idents lead hLead)⟩
  | .increment _ | .decrement _ | .read _ => List.forall_mem_nil _
  | .ifThen cond ⟨decls, stmts⟩ | .loop cond ⟨decls, stmts⟩ => by
    intro lead hLead
    rw [Stmt.leads, List.mem_append] at hLead
    rw [Stmt.idents, List.mem_append, List.mem_append]
    exact hLead.imp (fun h => .inl (cond.leads_idents lead h)) (Stmt.leadsAll_idents stmts lead)
  | .ifElse cond ⟨decls, stmts⟩ ⟨elseDecls, elseStmts⟩ => by
    intro lead hLead
    simp only [Stmt.leads, List.mem_append] at hLead
    simp only [Stmt.idents, List.mem_append]
    -- the condition, the first block or the second one
    rcases hLead with (h | h) | h
    · exact .inl (.inl (.inl (.inl (cond.leads_idents lead h))))
    · exact .inl (.inl (.inr (Stmt.leadsAll_idents stmts lead h)))
    · exact .inr (Stmt.leadsAll_idents elseStmts lead h)
  | .write value => value.leads_idents
  | .call callee args =>
    List.forall_mem_cons.mpr ⟨List.mem_cons_self, fun lead hLead =>
      List.mem_cons_of_mem _ (Expr.leadsAll_idents args lead hLead)⟩
  | .ret none => List.forall_mem_nil _
  | .ret (some value) => value.leads_idents

theorem Stmt.leadsAll_idents :
    (ss : List Stmt) → ∀ lead ∈ Stmt.leadsAll ss, lead.2 ∈ Stmt.identsAll ss
  | [] => List.forall_mem_nil _
  | s :: ss =>
    List.forall_mem_append.mpr
      ⟨fun lead hLead => List.mem_append_left _ (Stmt.leads_idents s lead hLead),
        fun lead hLead => List.mem_append_right _ (Stmt.leadsAll_idents ss lead hLead)⟩

end

/-- A lead is an identifier of its declaration. -/
theorem Decl.leads_idents (d : Decl) : ∀ lead ∈ d.leads, lead.2 ∈ d.idents := by
  cases d with
  | var d | struct s => exact List.forall_mem_nil _
  | func f =>
    intro lead hLead
    exact List.mem_append_right _ (List.mem_append_right _ (Stmt.leadsAll_idents _ lead hLead))

/-- A lead is an identifier of the program. -/
theorem Program.leads_idents (p : Program) : ∀ lead ∈ p.leads, lead.2 ∈ p.idents := by
  intro lead hLead
  obtain ⟨d, hd, hLead⟩ := List.mem_flatMap.mp hLead
  exact List.mem_flatMap.mpr ⟨d, hd, d.leads_idents lead hLead⟩

/-! ## Leads of a relabelled tree -/

section Relabel

variable (place : Position → Position) (name : Ident → Ident)

/-- The identifier of a lead, relabelled. -/
def relabelLead (lead : Lead × Ident) : Lead × Ident :=
  (lead.1, name lead.2)

/-- A renamed chain starts with the new name of its variable. -/
theorem Loc.root_relabel (l : Loc) : (l.relabel name).root = name l.root := by
  induction l with
  | var id => rfl
  | field left id ih => exact ih

mutual

/-- Renaming the identifiers renames the leads and keeps their places. -/
theorem Expr.leads_relabel :
    (e : Expr) → (e.relabel place name).leads = e.leads.map (relabelLead name)
  | .trueLit _ | .falseLit _ | .intLit _ _ | .strLit _ _ => rfl
  | .loc location => by
    rw [Expr.relabel, Expr.leads, Loc.root_relabel]
    rfl
  | .assign target value => by rw [Expr.relabel, Expr.leads, Expr.leads_relabel value, Expr.leads]
  | .call callee args => by
    rw [Expr.relabel, Expr.leads, Expr.leadsAll_relabel args, Expr.leads]
    rfl
  | .unary _ operand => by rw [Expr.relabel, Expr.leads, Expr.leads_relabel operand, Expr.leads]
  | .binary _ left right => by
    rw [Expr.relabel, Expr.leads, Expr.leads_relabel left, Expr.leads_relabel right, Expr.leads,
      List.map_append]

theorem Expr.leadsAll_relabel : (es : List Expr) →
    Expr.leadsAll (Expr.relabelAll place name es) = (Expr.leadsAll es).map (relabelLead name)
  | [] => rfl
  | e :: es => by
    rw [Expr.relabelAll, Expr.leadsAll, Expr.leads_relabel e, Expr.leadsAll_relabel es,
      Expr.leadsAll, List.map_append]

end

mutual

theorem Stmt.leads_relabel :
    (s : Stmt) → (s.relabel place name).leads = s.leads.map (relabelLead name)
  | .assign target value => by
    rw [Stmt.relabel, Stmt.leads, Loc.root_relabel, Expr.leads_relabel, Stmt.leads]
    rfl
  | .increment _ | .decrement _ | .read _ => rfl
  | .ifThen cond ⟨decls, stmts⟩ | .loop cond ⟨decls, stmts⟩ => by
    rw [Stmt.relabel, Stmt.leads, Expr.leads_relabel, Stmt.leadsAll_relabel stmts, Stmt.leads,
      List.map_append]
  | .ifElse cond ⟨decls, stmts⟩ ⟨elseDecls, elseStmts⟩ => by
    rw [Stmt.relabel, Stmt.leads, Expr.leads_relabel, Stmt.leadsAll_relabel stmts,
      Stmt.leadsAll_relabel elseStmts, Stmt.leads, List.map_append, List.map_append]
  | .write value
  | .ret (some value) => by rw [Stmt.relabel, Stmt.leads, Expr.leads_relabel, Stmt.leads]
  | .call callee args => by
    rw [Stmt.relabel, Stmt.leads, Expr.leadsAll_relabel, Stmt.leads]
    rfl
  | .ret none => rfl

theorem Stmt.leadsAll_relabel : (ss : List Stmt) →
    Stmt.leadsAll (Stmt.relabelAll place name ss) = (Stmt.leadsAll ss).map (relabelLead name)
  | [] => rfl
  | s :: ss => by
    rw [Stmt.relabelAll, Stmt.leadsAll, Stmt.leads_relabel s, Stmt.leadsAll_relabel ss,
      Stmt.leadsAll, List.map_append]

end

/-- Relabelling a program relabels each of its leads. -/
theorem Program.leads_relabel (p : Program) :
    (p.relabel place name).leads = p.leads.map (relabelLead name) := by
  have hDecl : ∀ d : Decl, (d.relabel place name).leads = d.leads.map (relabelLead name) := by
    intro d
    cases d with
    | var d | struct s => rfl
    | func f => exact Stmt.leadsAll_relabel place name f.body.stmts
  rw [Program.leads, Program.relabel, Program.leads, List.flatMap_map, List.map_flatMap]
  simp only [hDecl]

end Relabel

end NameResolution
