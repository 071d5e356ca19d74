import NameResolution.Proofs.Tree.Parts

/-!
# Events of a walk — every declaration with its scope, every use with the scopes around it

The scopes of a program are numbered in the order in which they begin, the global one with 0. Then
each declaration is made in the scope of a number, and each use stands inside the scopes of some
numbers. The fields of a struct have a scope of their own, in which nothing else is declared and
which is never around anything.

* `Program.events` — the declarations and uses of a program, in the order of the text.
* `Orderly` — formals come first in their scope, and the variables that a body repeats are known.
* `Program.parts_orderly` — all programs are so.
-/

namespace NameResolution

/-! ## Events -/

/-- What a declaration is of. -/
inductive Binder where
  /-- A variable or a field. -/
  | var (d : VarDecl)
  | formal (f : Formal)
  | func (id : Ident) (result : String) (params : List String)
  /-- A struct whose fields are in the scope `inside`. -/
  | struct (id : Ident) (inside : Nat)
deriving DecidableEq, Repr

/-- The name that is declared. -/
def Binder.id : Binder → Ident
  | var d => d.id
  | formal f => f.id
  | func id _ _ => id
  | struct id _ => id

/-- What happens at a place. -/
inductive Act where
  /-- A declaration in the scope `k`. -/
  | bind (k : Nat) (b : Binder)
  | use (spot : Spot)
deriving Repr

/-- A place of a program; `around` holds the scopes around it, the innermost first. -/
structure Event where
  around : List Nat
  act : Act
deriving Repr

/-! ## Listing the events of a tree -/

/-- The number of the next scope, and the scopes that are open, the innermost first. -/
structure Cursor where
  next : Nat
  around : List Nat
deriving DecidableEq, Repr

namespace Cursor

/-- The innermost scope. -/
def here (c : Cursor) : Nat :=
  c.around.headD 0

/-- A step over a part. The scope of a struct's fields takes a number and is not opened. -/
def enter (c : Cursor) : Part → Cursor
  | .opens => ⟨c.next + 1, c.next :: c.around⟩
  | .closes => ⟨c.next, c.around.tail⟩
  | .struct _ => ⟨c.next + 1, c.around⟩
  | .func _ _ _ | .formal _ | .var _ | .again _ | .use _ => c

/-- Behind some parts. -/
def behind (c : Cursor) (parts : List Part) : Cursor :=
  parts.foldl enter c

end Cursor

/-- The declarations and uses of a part. -/
def Part.events (c : Cursor) : Part → List Event
  | opens | closes => []
  | func id result params => [⟨c.around, .bind c.here (.func id result params)⟩]
  | formal f => [⟨c.around, .bind c.here (.formal f)⟩]
  | var d | again d => [⟨c.around, .bind c.here (.var d)⟩]
  | struct s => ⟨c.around, .bind c.here (.struct s.id c.next)⟩ ::
      s.fields.map fun d => ⟨c.around, .bind c.next (.var d)⟩
  | use spot => [⟨c.around, .use spot⟩]

/-- The declarations and uses of some parts. -/
def events (c : Cursor) : List Part → List Event
  | [] => []
  | part :: parts => part.events c ++ events (c.enter part) parts

/-- Inside the global scope. -/
def Cursor.start : Cursor := ⟨1, [0]⟩

/-- Every declaration and every use. -/
def Program.events (p : Program) : List Event :=
  NameResolution.events .start p.parts

section Append

variable {c : Cursor} {parts rest : List Part}

/-- Going through two lists is going through the first and then the second. -/
theorem Cursor.behind_append (c : Cursor) (parts rest : List Part) :
    c.behind (parts ++ rest) = (c.behind parts).behind rest :=
  List.foldl_append

/-- The events of two lists, the second read from where the first ends. -/
theorem events_append (c : Cursor) (parts rest : List Part) :
    events c (parts ++ rest) = events c parts ++ events (c.behind parts) rest := by
  induction parts generalizing c with
  | nil => rfl
  | cons part parts ih =>
    rw [List.cons_append, events, events, ih, List.append_assoc]
    rfl

end Append

/-! ## Numbers of scopes -/

/-- The act declares a formal of this name in the scope. -/
def Act.bindsFormal (k : Nat) (name : String) : Act → Bool
  | bind j (.formal f) => j = k && f.id.name = name
  | bind _ (.var _) | bind _ (.func _ _ _) | bind _ (.struct _ _) | use _ => false

/-- The act declares a variable of this name in the scope. -/
def Act.bindsVar (k : Nat) (name : String) : Act → Bool
  | bind j (.var d) => j = k && d.id.name = name
  | bind _ (.formal _) | bind _ (.func _ _ _) | bind _ (.struct _ _) | use _ => false

/-- A formal of this name is declared in the scope. -/
def HasFormal (earlier : List Event) (k : Nat) (name : String) : Prop :=
  ∃ e ∈ earlier, e.act.bindsFormal k name

/-- A variable of this name is declared in the scope. -/
def HasVar (earlier : List Event) (k : Nat) (name : String) : Prop :=
  ∃ e ∈ earlier, e.act.bindsVar k name

instance (earlier : List Event) (k : Nat) (name : String) : Decidable (HasFormal earlier k name) :=
  inferInstanceAs (Decidable (∃ e ∈ earlier, e.act.bindsFormal k name))

instance (earlier : List Event) (k : Nat) (name : String) : Decidable (HasVar earlier k name) :=
  inferInstanceAs (Decidable (∃ e ∈ earlier, e.act.bindsVar k name))

/-- What it takes to bind a formal of that name in the scope. -/
theorem Act.bindsFormal_iff {act : Act} {k : Nat} {name : String} :
    act.bindsFormal k name ↔ ∃ f, act = .bind k (.formal f) ∧ f.id.name = name := by
  cases act with
  | use spot => simp [bindsFormal]
  | bind j b => cases b <;> simp [bindsFormal, and_assoc]

/-- What it takes to bind a variable of that name in the scope. -/
theorem Act.bindsVar_iff {act : Act} {k : Nat} {name : String} :
    act.bindsVar k name ↔ ∃ d, act = .bind k (.var d) ∧ d.id.name = name := by
  cases act with
  | use spot => simp [bindsVar]
  | bind j b => cases b <;> simp [bindsVar, and_assoc]

theorem hasFormal_append {earlier more : List Event} {k : Nat} {name : String} :
    HasFormal (earlier ++ more) k name ↔ HasFormal earlier k name ∨ HasFormal more k name := by
  simp only [HasFormal, List.mem_append, or_and_right, exists_or]

theorem hasVar_append {earlier more : List Event} {k : Nat} {name : String} :
    HasVar (earlier ++ more) k name ↔ HasVar earlier k name ∨ HasVar more k name := by
  simp only [HasVar, List.mem_append, or_and_right, exists_or]

theorem hasFormal_singleton {e : Event} {k : Nat} {name : String} :
    HasFormal [e] k name ↔ ∃ f, e.act = .bind k (.formal f) ∧ f.id.name = name := by
  simp only [HasFormal, List.mem_singleton, exists_eq_left, Act.bindsFormal_iff]

theorem hasVar_singleton {e : Event} {k : Nat} {name : String} :
    HasVar [e] k name ↔ ∃ d, e.act = .bind k (.var d) ∧ d.id.name = name := by
  simp only [HasVar, List.mem_singleton, exists_eq_left, Act.bindsVar_iff]

/-- Where no formal is declared, there is none of any name. -/
theorem not_hasFormal {earlier : List Event} {k : Nat}
    (h : ∀ e ∈ earlier, ∀ f, e.act ≠ .bind k (.formal f)) (name : String) :
    ¬ HasFormal earlier k name := by
  rintro ⟨e, he, hFormal⟩
  obtain ⟨f, hAct, -⟩ := Act.bindsFormal_iff.mp hFormal
  exact h e he f hAct

/-- The numbers that are in use come before the next one, and a scope is open. -/
structure Cursor.Covers (c : Cursor) (earlier : List Event) : Prop where
  opened : c.around ≠ []
  around : ∀ k ∈ c.around, k < c.next
  scopes : ∀ e ∈ earlier, ∀ k b, e.act = .bind k b → k < c.next

namespace Cursor.Covers

variable {c : Cursor} {earlier : List Event}

/-- The innermost scope is one of those around. -/
theorem here_mem (h : c.Covers earlier) : c.here ∈ c.around := by
  obtain ⟨k, rest, hAround⟩ := List.exists_cons_of_ne_nil h.opened
  rw [here, hAround]
  exact List.mem_cons_self

/-- The innermost scope has a number that is in use. -/
theorem here_lt (h : c.Covers earlier) : c.here < c.next :=
  h.around _ h.here_mem

/-- More events, in scopes with numbers that are in use. -/
theorem append (h : c.Covers earlier) {more : List Event}
    (hMore : ∀ e ∈ more, ∀ k b, e.act = .bind k b → k < c.next) : c.Covers (earlier ++ more) where
  opened := h.opened
  around := h.around
  scopes := List.forall_mem_append.mpr ⟨h.scopes, hMore⟩

/-- A new scope takes the next number. -/
theorem opens (h : c.Covers earlier) : (c.enter .opens).Covers earlier where
  opened := List.cons_ne_nil _ _
  around k hk := by
    rcases List.mem_cons.mp hk with rfl | hk
    · exact Nat.lt_succ_self _
    · exact Nat.lt_succ_of_lt (h.around k hk)
  scopes e he k b hAct := Nat.lt_succ_of_lt (h.scopes e he k b hAct)

/-- A number that is left out. -/
theorem skip (h : c.Covers earlier) : Cursor.Covers ⟨c.next + 1, c.around⟩ earlier where
  opened := h.opened
  around k hk := Nat.lt_succ_of_lt (h.around k hk)
  scopes e he k b hAct := Nat.lt_succ_of_lt (h.scopes e he k b hAct)

end Cursor.Covers

/-! ## The order of declarations -/

/-- What the events before a part say about it. -/
def Part.FitsBehind (c : Cursor) (earlier : List Event) : Part → Prop
  -- in front of a formal there are only formals
  | formal _ => ∀ e ∈ earlier, ∀ b, e.act = .bind c.here b → ∃ f, b = .formal f
  | var d => HasFormal earlier c.here d.id.name → ¬ HasVar earlier c.here d.id.name
  | again d => HasVar earlier c.here d.id.name
  | opens | closes | func _ _ _ | struct _ | use _ => True

/-- Each part stands where it belongs. -/
def Orderly (c : Cursor) (earlier : List Event) : List Part → Prop
  | [] => True
  | part :: parts =>
    part.FitsBehind c earlier ∧ Orderly (c.enter part) (earlier ++ part.events c) parts

theorem Orderly.append {c : Cursor} {earlier : List Event} {parts rest : List Part}
    (h : Orderly c earlier parts)
    (hRest : Orderly (c.behind parts) (earlier ++ events c parts) rest) :
    Orderly c earlier (parts ++ rest) := by
  -- induction on the first list, with the cursor and the events in front of it free
  induction parts generalizing c earlier with
  | nil =>
    rw [events, List.append_nil] at hRest
    exact hRest
  | cons part parts ih =>
    obtain ⟨hFirst, hParts⟩ := h
    refine ⟨hFirst, ih hParts ?_⟩
    rw [List.append_assoc]
    exact hRest

/-! ### Declarations at the head of a scope -/

variable {c : Cursor} {earlier : List Event} {parts rest : List Part}

/-- Steps that declare in the innermost scope, and can stand at its head. -/
structure Leading (parts : List Part) : Prop where
  behind : ∀ c : Cursor, c.behind parts = c
  here : ∀ c : Cursor, ∀ e ∈ events c parts, ∀ k b, e.act = .bind k b → k = c.here
  orderly : ∀ (c : Cursor) earlier, (∀ e ∈ earlier, ∀ b, e.act ≠ .bind c.here b) →
    Orderly c earlier parts

/-- Parts that open and close nothing leave the cursor where it is. -/
theorem behind_of_forall {parts : List Part} (h : ∀ part ∈ parts, ∀ c : Cursor, c.enter part = c)
    (c : Cursor) : c.behind parts = c := by
  induction parts with
  | nil => rfl
  | cons part parts ih =>
    obtain ⟨hPart, hParts⟩ := List.forall_mem_cons.mp h
    rw [Cursor.behind, List.foldl_cons, hPart c]
    exact ih hParts

/-- Variables in a row are bound in the innermost scope one by one. -/
theorem events_vars (c : Cursor) (ds : List VarDecl) :
    events c (ds.map .var) = ds.map fun d => ⟨c.around, .bind c.here (.var d)⟩ := by
  induction ds with
  | nil => rfl
  | cons d ds ih =>
    rw [List.map_cons, List.map_cons, ← ih]
    rfl

/-- Formals in a row are bound in the innermost scope one by one. -/
theorem events_formals (c : Cursor) (fs : List Formal) :
    events c (fs.map .formal) = fs.map fun f => ⟨c.around, .bind c.here (.formal f)⟩ := by
  induction fs with
  | nil => rfl
  | cons f fs ih =>
    rw [List.map_cons, List.map_cons, ← ih]
    rfl

/-- The variables of a function body are bound like any others. -/
theorem events_locals (c : Cursor) (seen : List String) (ds : List VarDecl) :
    events c (localParts seen ds) = ds.map fun d => ⟨c.around, .bind c.here (.var d)⟩ := by
  induction ds generalizing seen with
  | nil => rfl
  | cons d ds ih =>
    rw [localParts, List.map_cons, ← ih (d.id.name :: seen)]
    split <;> rfl

/-- The variables of a function body leave the cursor where it is. -/
theorem behind_locals (c : Cursor) (seen : List String) (ds : List VarDecl) :
    c.behind (localParts seen ds) = c := by
  induction ds generalizing seen with
  | nil => rfl
  | cons d ds ih =>
    rw [localParts]
    split <;> exact ih (d.id.name :: seen)

/-- Variables where there are no formals. -/
theorem vars_orderly (ds : List VarDecl)
    (h : ∀ e ∈ earlier, ∀ f, e.act ≠ .bind c.here (.formal f)) :
    Orderly c earlier (ds.map .var) := by
  induction ds generalizing earlier with
  | nil => trivial
  | cons d ds ih =>
    refine ⟨fun hFormal => absurd hFormal (not_hasFormal h _), ih ?_⟩
    refine List.forall_mem_append.mpr ⟨h, List.forall_mem_singleton.mpr ?_⟩
    rintro f ⟨⟩

/-- Formals are in order if the scope has nothing but formals so far. -/
theorem formals_orderly (fs : List Formal)
    (h : ∀ e ∈ earlier, ∀ b, e.act = .bind c.here b → ∃ f, b = .formal f) :
    Orderly c earlier (fs.map .formal) := by
  induction fs generalizing earlier with
  | nil => trivial
  | cons f fs ih =>
    refine ⟨h, ih (List.forall_mem_append.mpr ⟨h, List.forall_mem_singleton.mpr ?_⟩)⟩
    rintro b ⟨⟩
    exact ⟨f, rfl⟩

/-- The names that a body has had are those of the variables before. -/
theorem locals_orderly (seen : List String) (ds : List VarDecl)
    (h : ∀ name, HasVar earlier c.here name ↔ name ∈ seen) :
    Orderly c earlier (localParts seen ds) := by
  induction ds generalizing seen earlier with
  | nil => trivial
  | cons d ds ih =>
    have hNext : ∀ name, HasVar (earlier ++ [⟨c.around, .bind c.here (.var d)⟩]) c.here name ↔
        name ∈ d.id.name :: seen := by
      intro name
      rw [List.mem_cons, ← h, or_comm, hasVar_append, hasVar_singleton]
      simp [eq_comm]
    rw [localParts]
    split
    -- the name was seen, so an earlier variable has it
    · rename_i hSeen
      exact ⟨(h _).mpr (List.contains_iff_mem.mp hSeen), ih _ hNext⟩
    · rename_i hNew
      exact ⟨fun _ hVar => hNew (List.contains_iff_mem.mpr ((h _).mp hVar)), ih _ hNext⟩

/-- Variables can stand at the head of a scope. -/
theorem Leading.vars (ds : List VarDecl) : Leading (ds.map .var) where
  behind := by
    refine behind_of_forall fun part hPart _ => ?_
    obtain ⟨d, -, rfl⟩ := List.mem_map.mp hPart
    rfl
  here c e he k b hAct := by
    rw [events_vars] at he
    obtain ⟨d, -, rfl⟩ := List.mem_map.mp he
    cases hAct
    rfl
  orderly c earlier h := vars_orderly ds fun e he f => h e he (.formal f)

/-- The formals of a function and the variables of its body. -/
theorem Leading.function (fs : List Formal) (ds : List VarDecl) :
    Leading (fs.map .formal ++ localParts [] ds) := by
  have hFormals : ∀ c : Cursor, c.behind (fs.map .formal) = c := by
    refine behind_of_forall fun part hPart _ => ?_
    obtain ⟨f, -, rfl⟩ := List.mem_map.mp hPart
    rfl
  refine ⟨fun c => by rw [Cursor.behind_append, hFormals, behind_locals], ?_, ?_⟩
  · intro c e he k b hAct
    rw [events_append, hFormals, events_formals, events_locals, List.mem_append] at he
    rcases he with he | he <;> obtain ⟨_, -, rfl⟩ := List.mem_map.mp he <;> cases hAct <;> rfl
  · intro c earlier h
    refine (formals_orderly fs fun e he b hAct => absurd hAct (h e he b)).append ?_
    rw [hFormals, events_formals]
    refine locals_orderly [] ds fun name => ⟨?_, fun hMem => absurd hMem List.not_mem_nil⟩
    -- there are formals in front, and no variables
    rintro ⟨e, he, hVar⟩
    obtain ⟨d, hAct, -⟩ := Act.bindsVar_iff.mp hVar
    rcases List.mem_append.mp he with he | he
    · exact absurd hAct (h e he (.var d))
    · obtain ⟨f, -, rfl⟩ := List.mem_map.mp he
      cases hAct

/-! ### Parts that declare in scopes of their own -/

/-- Steps that declare in scopes of their own only, and close what they open. -/
structure Enclosed (parts : List Part) : Prop where
  around : ∀ c : Cursor, (c.behind parts).around = c.around
  next : ∀ c : Cursor, c.next ≤ (c.behind parts).next
  numbered : ∀ c : Cursor, ∀ e ∈ events c parts, ∀ k b, e.act = .bind k b →
    c.next ≤ k ∧ k < (c.behind parts).next
  orderly : ∀ (c : Cursor) earlier, c.Covers earlier → Orderly c earlier parts

/-- Behind enclosed parts the numbers in use still come before the next one. -/
theorem Cursor.Covers.enclosed (h : c.Covers earlier) (hParts : Enclosed parts) :
    (c.behind parts).Covers (earlier ++ events c parts) where
  opened := by
    rw [hParts.around]
    exact h.opened
  around k hk := Nat.lt_of_lt_of_le (h.around k (hParts.around c ▸ hk)) (hParts.next c)
  scopes := List.forall_mem_append.mpr
    ⟨fun e he k b hAct => Nat.lt_of_lt_of_le (h.scopes e he k b hAct) (hParts.next c),
      fun e he k b hAct => (hParts.numbered c e he k b hAct).2⟩

namespace Enclosed

theorem nil : Enclosed [] where
  around _ := rfl
  next _ := Nat.le_refl _
  numbered _ _ he := absurd he List.not_mem_nil
  orderly _ _ _ := trivial

/-- Enclosed parts in a row are enclosed. -/
theorem append (h : Enclosed parts) (h' : Enclosed rest) : Enclosed (parts ++ rest) where
  around c := by rw [Cursor.behind_append, h'.around, h.around]
  next c := by
    rw [Cursor.behind_append]
    exact Nat.le_trans (h.next c) (h'.next _)
  numbered c := by
    rw [events_append, Cursor.behind_append]
    -- the scopes of either list lie between the numbers at its two ends
    refine List.forall_mem_append.mpr ⟨fun e he k b hAct => ?_, fun e he k b hAct => ?_⟩
    · obtain ⟨hLow, hHigh⟩ := h.numbered c e he k b hAct
      exact ⟨hLow, Nat.lt_of_lt_of_le hHigh (h'.next _)⟩
    · obtain ⟨hLow, hHigh⟩ := h'.numbered _ e he k b hAct
      exact ⟨Nat.le_trans (h.next c) hLow, hHigh⟩
  orderly c earlier hCovers :=
    (h.orderly c earlier hCovers).append (h'.orderly _ _ (hCovers.enclosed h))

/-- Uses bind nothing. -/
theorem uses (spots : List Spot) : Enclosed (usesOf spots) := by
  have hUse (spot : Spot) : Enclosed [.use spot] :=
    { around := fun _ => rfl
      next := fun _ => Nat.le_refl _
      numbered := fun c e he k b hAct => by
        obtain rfl := List.mem_singleton.mp he
        cases hAct
      orderly := fun _ _ _ => ⟨trivial, trivial⟩ }
  induction spots with
  | nil => exact nil
  | cons spot spots ih => exact (hUse spot).append ih

theorem use (spot : Spot) : Enclosed [.use spot] := uses [spot]

/-- A scope with its declarations in front. -/
theorem scope {leading : List Part} (hLeading : Leading leading) (h : Enclosed parts) :
    Enclosed (nested (leading ++ parts)) := by
  have hBehind (c : Cursor) : c.behind (nested (leading ++ parts)) =
      ((c.enter .opens).behind parts).enter .closes := by
    show (c.enter .opens).behind ((leading ++ parts) ++ [.closes]) = _
    rw [Cursor.behind_append, Cursor.behind_append, hLeading.behind]
    rfl
  have hEvents (c : Cursor) : events c (nested (leading ++ parts)) =
      events (c.enter .opens) leading ++ events (c.enter .opens) parts := by
    show events (c.enter .opens) ((leading ++ parts) ++ [.closes]) = _
    rw [events_append, events_append, hLeading.behind]
    exact List.append_nil _
  have hNext (c : Cursor) : c.next < ((c.enter .opens).behind parts).next :=
    h.next (c.enter .opens)
  refine ⟨fun c => ?_, fun c => ?_, fun c => ?_, fun c earlier hCovers => ?_⟩
  -- closing takes away what opening added
  · rw [hBehind]
    show ((c.enter .opens).behind parts).around.tail = c.around
    rw [h.around]
    rfl
  · rw [hBehind]
    exact Nat.le_of_lt (hNext c)
  · rw [hEvents, hBehind]
    refine List.forall_mem_append.mpr ⟨fun e he k b hAct => ?_, fun e he k b hAct => ?_⟩
    -- the declarations in front have the scope's own number, the others later ones
    · rw [hLeading.here _ e he k b hAct]
      exact ⟨Nat.le_refl _, hNext c⟩
    · obtain ⟨hLow, hHigh⟩ := h.numbered _ e he k b hAct
      exact ⟨Nat.le_of_succ_le hLow, hHigh⟩
  · -- nothing has been declared in the new scope
    have hFresh : ∀ e ∈ earlier, ∀ b, e.act ≠ .bind c.next b := fun e he b hAct =>
      Nat.lt_irrefl _ (hCovers.scopes e he c.next b hAct)
    have hOpened := hCovers.opens.append fun e he k b hAct => by
      rw [hLeading.here (c.enter .opens) e he k b hAct]
      exact Nat.lt_succ_self c.next
    refine ⟨trivial, ?_⟩
    show Orderly (c.enter .opens) (earlier ++ []) ((leading ++ parts) ++ [.closes])
    rw [List.append_nil]
    refine ((hLeading.orderly _ _ hFresh).append ?_).append ⟨trivial, trivial⟩
    rw [hLeading.behind]
    exact h.orderly _ _ hOpened

end Enclosed

mutual

/-- A statement closes every scope it opens. -/
theorem Stmt.parts_enclosed : (s : Stmt) → Enclosed s.parts
  | .assign target value => (Enclosed.use (.location target)).append (.uses value.spots)
  | .increment target | .decrement target | .read target => .use (.location target)
  | .ifThen cond ⟨decls, stmts⟩ | .loop cond ⟨decls, stmts⟩ =>
    (Enclosed.uses cond.spots).append (.scope (.vars decls) (Stmt.partsAll_enclosed stmts))
  | .ifElse cond ⟨decls, stmts⟩ ⟨elseDecls, elseStmts⟩ =>
    -- one scope behind the other, neither inside the other one
    (Enclosed.uses cond.spots).append
      ((Enclosed.scope (.vars decls) (Stmt.partsAll_enclosed stmts)).append
        (.scope (.vars elseDecls) (Stmt.partsAll_enclosed elseStmts)))
  | .write value => .uses value.spots
  | .call callee args => (Enclosed.use (.callee callee)).append (.uses (Expr.spotsAll args))
  | .ret none => .nil
  | .ret (some value) => .uses value.spots

theorem Stmt.partsAll_enclosed : (ss : List Stmt) → Enclosed (Stmt.partsAll ss)
  | [] => .nil
  | s :: ss => (Stmt.parts_enclosed s).append (Stmt.partsAll_enclosed ss)

end

/-! ### Programs -/

/-- At the top level only the global scope is open, and no formal is declared in it. -/
structure Cursor.AtTop (c : Cursor) (earlier : List Event) : Prop extends c.Covers earlier where
  global : c.around = [0]
  formals : ∀ e ∈ earlier, ∀ f, e.act ≠ .bind 0 (.formal f)

/-- Outside of all functions the innermost scope is the global one. -/
theorem Cursor.AtTop.here_eq (h : c.AtTop earlier) : c.here = 0 := by
  rw [here, h.global]
  rfl

/-- Something is declared in the global scope. -/
theorem Cursor.AtTop.append (h : c.AtTop earlier) {e : Event} {b : Binder}
    (hAct : e.act = .bind c.here b) (hFormal : ∀ f, b ≠ .formal f) : c.AtTop (earlier ++ [e]) where
  toCovers := h.toCovers.append <| List.forall_mem_singleton.mpr fun k b' hAct' => by
    rw [hAct] at hAct'
    cases hAct'
    exact h.here_lt
  global := h.global
  formals := List.forall_mem_append.mpr ⟨h.formals, List.forall_mem_singleton.mpr fun f hAct' => by
    rw [hAct] at hAct'
    exact hFormal f (Act.bind.inj hAct').2⟩

/-- Behind enclosed parts one is outside of all functions again. -/
theorem Cursor.AtTop.enclosed (h : c.AtTop earlier) (hParts : Enclosed parts) :
    (c.behind parts).AtTop (earlier ++ events c parts) where
  toCovers := h.toCovers.enclosed hParts
  global := by rw [hParts.around, h.global]
  formals := List.forall_mem_append.mpr ⟨h.formals, fun e he f hAct => by
    -- the scopes inside have later numbers than the global one
    have hLater := (hParts.numbered c e he 0 _ hAct).1
    exact Nat.not_lt_of_le hLater (h.around 0 (h.global ▸ List.mem_cons_self))⟩

/-- Behind a struct declaration one is outside of all functions again. -/
theorem Cursor.AtTop.struct (h : c.AtTop earlier) (s : StructDecl) :
    (c.enter (.struct s)).AtTop (earlier ++ Part.events c (.struct s)) := by
  -- the name is bound in the global scope, the fields under the number of the field table
  have hName := h.append (e := ⟨c.around, .bind c.here (.struct s.id c.next)⟩) rfl (by rintro f ⟨⟩)
  have hZero : 0 < c.next := h.around 0 (h.global ▸ List.mem_cons_self)
  have hFields : ∀ e ∈ s.fields.map fun d => (⟨c.around, .bind c.next (.var d)⟩ : Event),
      ∃ d, e.act = .bind c.next (.var d) := fun e he => by
    obtain ⟨d, -, rfl⟩ := List.mem_map.mp he
    exact ⟨d, rfl⟩
  rw [Part.events, List.append_cons]
  exact
    { toCovers := hName.toCovers.skip.append fun e he k b hAct => by
        obtain ⟨d, hField⟩ := hFields e he
        rw [hField] at hAct
        cases hAct
        exact Nat.lt_succ_self c.next
      global := h.global
      formals := List.forall_mem_append.mpr ⟨hName.formals, fun e he f hAct => by
        obtain ⟨d, hField⟩ := hFields e he
        rw [hField] at hAct
        cases (Act.bind.inj hAct).2⟩ }

/-- The parts of a declaration are in order, and one is outside of all functions behind it. -/
theorem Decl.parts_orderly (h : c.AtTop earlier) (d : Decl) :
    Orderly c earlier d.parts ∧ (c.behind d.parts).AtTop (earlier ++ events c d.parts) := by
  cases d with
  | var d =>
    refine ⟨⟨?_, trivial⟩, ?_⟩
    -- the global scope has no formals
    · exact fun hFormal => absurd hFormal (not_hasFormal (h.here_eq.symm ▸ h.formals) _)
    · exact h.append rfl (by rintro f ⟨⟩)
  | struct s =>
    refine ⟨⟨trivial, trivial⟩, ?_⟩
    show (c.enter (.struct s)).AtTop (earlier ++ (Part.events c (.struct s) ++ []))
    rw [List.append_nil]
    exact h.struct s
  | func f =>
    -- the formals, the variables and the statements of a function share the scope it opens
    have hInside : Enclosed (nested (f.formals.map .formal ++
        (localParts [] f.body.decls ++ Stmt.partsAll f.body.stmts))) := by
      rw [← List.append_assoc]
      exact .scope (.function f.formals f.body.decls) (Stmt.partsAll_enclosed f.body.stmts)
    have hName := h.append (e := ⟨c.around, .bind c.here (.func f.id f.result.name f.paramTypes)⟩)
      rfl (by rintro f ⟨⟩)
    have hAfter := hName.enclosed hInside
    rw [List.append_assoc] at hAfter
    exact ⟨⟨trivial, hInside.orderly c _ hName.toCovers⟩, hAfter⟩

/-- In a program each part stands where it belongs. -/
theorem Program.parts_orderly (p : Program) : Orderly .start [] p.parts := by
  have hStart : Cursor.start.AtTop [] :=
    { opened := List.cons_ne_nil _ _
      around := fun k hk => by
        obtain rfl := List.mem_singleton.mp hk
        exact Nat.zero_lt_one
      scopes := List.forall_mem_nil _
      global := rfl
      formals := List.forall_mem_nil _ }
  -- the cursor and the events change from one declaration to the next
  suffices h : ∀ (ds : List Decl) (c : Cursor) earlier, c.AtTop earlier →
      Orderly c earlier (ds.flatMap Decl.parts) from h p.decls .start [] hStart
  intro ds
  induction ds with
  | nil => exact fun _ _ _ => trivial
  | cons d ds ih =>
    intro c earlier h
    obtain ⟨hFirst, hAfter⟩ := d.parts_orderly h
    rw [List.flatMap_cons]
    exact hFirst.append (ih _ _ hAfter)

end NameResolution
