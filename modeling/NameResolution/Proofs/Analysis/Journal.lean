import NameResolution.Proofs.Analysis.Outcome
import NameResolution.Proofs.Tree.Events

/-!
# Journals — the events of a program with what became of them

A journal lists the declarations and uses of a program as an analysis came to them, each with the
annotated part and with the errors found there. What a scope binds can be read off it: the first
declaration of a name without an error binds the name.

* `Journal.bound`, `Journal.visible` — what a name stands for, from the journal alone.
* `Journal.Describes` — a symbol table is the one that the journal tells of.
* `Describes.skip`, `Describes.extend` — one more entry, which binds nothing new or something.
-/

namespace NameResolution

open SymbolTable

/-! ## Entries -/

/-- An event with the annotated act and the errors found in it. -/
structure Entry extends Event where
  result : Act
  errors : List Diagnostic
deriving Repr

/-- The event in the annotated program. -/
def Entry.after (e : Entry) : Event :=
  ⟨e.around, e.result⟩

/-- The symbol on the name that is declared. -/
def Act.symbol? : Act → Option Symbol
  | bind _ b => b.id.symbol?
  | use _ => none

/-- The entry is a declaration of the name in the scope, and it was found good. -/
def Entry.binds (e : Entry) (k : Nat) (name : String) : Bool :=
  match e.act with
  | .bind j b => j = k && b.id.name = name && e.errors.isEmpty
  | .use _ => false

/-! ## What a journal says -/

namespace Journal

/-- The declaration that binds the name in the scope: the first good one. -/
def binding (journal : List Entry) (k : Nat) (name : String) : Option Entry :=
  journal.find? (·.binds k name)

/-- The symbol of the name in the scope. -/
def bound (journal : List Entry) (k : Nat) (name : String) : Option Symbol :=
  (binding journal k name).bind fun e => e.result.symbol?

/-- The symbol of the name in the innermost of some scopes that binds it. -/
def visible (journal : List Entry) (around : List Nat) (name : String) : Option Symbol :=
  around.findSome? fun k => bound journal k name

end Journal

/-- What a type makes of the name that is declared with it. -/
def TypeRef.meaning : TypeRef → Meaning
  | struct id => .structVar id.name
  | boolean => .regular "boolean"
  | integer => .regular "integer"
  | void => .regular "void"

namespace Binder

/-- What a declaration says about its name, when the global scope has the number `g`. -/
def meaning (g : ScopeId) : Binder → Meaning
  | var d => d.type.meaning
  | formal f => .formal f.type.name
  | func _ result params => .function result params
  | struct _ inside => .structDecl (g + inside)

/-- The symbol that a good declaration introduces. -/
def symbol (g : ScopeId) (k : Nat) (b : Binder) : Symbol :=
  declaredSymbol (g + k) b.id.name (b.meaning g)

/-- A binder gives a defined symbol. -/
theorem symbol_defined (g : ScopeId) (k : Nat) (b : Binder) :
    (b.symbol g k).isUndefined = false := by
  have hCategory : (b.meaning g).category ≠ .undefined := by
    cases b with
    | var d =>
      obtain ⟨type, id, isField⟩ := d
      cases type <;> rintro ⟨⟩
    | formal | func | struct => rintro ⟨⟩
  exact decide_eq_false hCategory

/-- The symbols of formals are those of formals. -/
theorem isFormal_symbol {g : ScopeId} {k : Nat} {b : Binder} :
    (b.symbol g k).isFormal = true ↔ ∃ f, b = .formal f := by
  have hCategory : (b.symbol g k).isFormal = decide ((b.meaning g).category = .formal) := rfl
  rw [hCategory, decide_eq_true_iff]
  cases b with
  | var d =>
    obtain ⟨type, id, isField⟩ := d
    cases type <;> exact ⟨by rintro ⟨⟩, by rintro ⟨f, ⟨⟩⟩⟩
  | formal f => exact ⟨fun _ => ⟨f, rfl⟩, fun _ => rfl⟩
  | func | struct => exact ⟨by rintro ⟨⟩, by rintro ⟨f, ⟨⟩⟩⟩

/-- Only a struct is known by its fields. -/
theorem eq_struct_of_isStructDecl {g : ScopeId} {k : Nat} {b : Binder}
    (h : (b.symbol g k).isStructDecl = true) : ∃ id inside, b = .struct id inside := by
  have hCategory : (b.meaning g).category = .structDecl := of_decide_eq_true h
  cases b with
  | var d =>
    obtain ⟨type, id, isField⟩ := d
    cases type <;> cases hCategory
  | formal | func => cases hCategory
  | struct id inside => exact ⟨id, inside, rfl⟩

end Binder

variable {g : ScopeId} {journal : List Entry} {c : Cursor} {t t' : SymbolTable} {e : Entry}
  {k : Nat} {name : String} {b : Binder} {symbol : Symbol}

/-- An entry binds a name if it declares it without an error. -/
theorem Entry.binds_iff : e.binds k name = true ↔
    ∃ b, e.act = .bind k b ∧ b.id.name = name ∧ e.errors = [] := by
  rw [binds]
  cases e.act with
  | use spot => simp
  | bind j b => simp [and_assoc]

namespace Journal

/-! ## One entry more -/

/-- A later entry matters only if no earlier one binds the name. -/
theorem binding_snoc (journal : List Entry) (e : Entry) (k : Nat) (name : String) :
    binding (journal ++ [e]) k name =
      (binding journal k name).or (if e.binds k name then some e else none) := by
  rw [binding, List.find?_append, List.find?_singleton]
  rfl

/-- What binds a name is one of the entries, a good declaration of the name in the scope. -/
theorem binding_eq_some (h : binding journal k name = some e) :
    e ∈ journal ∧ ∃ b, e.act = .bind k b ∧ b.id.name = name ∧ e.errors = [] := by
  have hBinds := List.find?_some (p := fun e => Entry.binds e k name) h
  exact ⟨List.mem_of_find?_eq_some h, Entry.binds_iff.mp hBinds⟩

/-- An entry changes nothing if the name that it would bind is bound already. -/
theorem binding_snoc_of_bound (h : ∀ k name, e.binds k name = true →
    (binding journal k name).isSome = true) (k : Nat) (name : String) :
    binding (journal ++ [e]) k name = binding journal k name := by
  rw [binding_snoc]
  split
  · rename_i hBinds
    obtain ⟨e₀, he₀⟩ := Option.isSome_iff_exists.mp (h k name hBinds)
    rw [he₀, Option.some_or]
  · exact Option.or_none

/-! ## The table of a journal -/

/-- The table is the one that the journal tells of, when the global scope has the number `g`. -/
structure Describes (g : ScopeId) (journal : List Entry) (c : Cursor) (t : SymbolTable) : Prop where
  count : t.store.length = g + c.next
  stack : t.stack = c.around.map (g + ·)
  covers : c.Covers (journal.map Entry.toEvent)
  lookup : ∀ k name, (t.scope (g + k)).lookup name = bound journal k name
  /-- What binds a name carries the symbol of its own declaration. -/
  own : ∀ k b e, binding journal k b.id.name = some e → e.act = .bind k b →
    e.result.symbol? = some (b.symbol g k)
  /-- Where there is a formal of a name, the name is that of a formal. -/
  formals : ∀ k name, HasFormal (journal.map Entry.toEvent) k name →
    ∃ e f, binding journal k name = some e ∧ e.act = .bind k (.formal f)

namespace Describes

/-- What is bound is the symbol of the first declaration in the journal. -/
theorem bound_eq_some (h : Describes g journal c t) : bound journal k name = some symbol ↔
    ∃ e b, binding journal k name = some e ∧ e.act = .bind k b ∧ b.id.name = name ∧
      symbol = b.symbol g k := by
  rw [bound, Option.bind_eq_some_iff]
  constructor
  · rintro ⟨e, hBinding, hSymbol⟩
    obtain ⟨-, b, hAct, rfl, -⟩ := binding_eq_some hBinding
    rw [h.own k b e hBinding hAct] at hSymbol
    exact ⟨e, b, hBinding, hAct, rfl, (Option.some.inj hSymbol).symm⟩
  · rintro ⟨e, b, hBinding, hAct, rfl, rfl⟩
    exact ⟨e, hBinding, h.own k b e hBinding hAct⟩

/-- Nothing is bound exactly if the journal has no declaration. -/
theorem bound_eq_none (h : Describes g journal c t) :
    bound journal k name = none ↔ binding journal k name = none := by
  constructor
  · intro hNone
    cases hBinding : binding journal k name with
    | none => rfl
    | some e =>
      obtain ⟨-, b, hAct, rfl, -⟩ := binding_eq_some hBinding
      rw [h.bound_eq_some.mpr ⟨e, b, hBinding, hAct, rfl, rfl⟩] at hNone
      cases hNone
  · intro hNone
    rw [bound, hNone]
    rfl

/-- A bound name has a declaration in the journal. -/
theorem binding_isSome (h : Describes g journal c t)
    (hBound : (bound journal k name).isSome = true) : (binding journal k name).isSome = true := by
  rw [Option.isSome_iff_ne_none] at hBound ⊢
  exact fun hNone => hBound (h.bound_eq_none.mpr hNone)

/-- Nothing that is bound is undefined. -/
theorem defined (h : Describes g journal c t) (hBound : bound journal k name = some symbol) :
    symbol.isUndefined = false := by
  obtain ⟨e, b, -, -, -, rfl⟩ := h.bound_eq_some.mp hBound
  exact b.symbol_defined g k

/-- The name is that of a formal where a formal of the name is declared, and only there. -/
theorem isFormal_iff (h : Describes g journal c t) :
    (∃ symbol, bound journal k name = some symbol ∧ symbol.isFormal = true) ↔
      HasFormal (journal.map Entry.toEvent) k name := by
  constructor
  · rintro ⟨symbol, hBound, hFormal⟩
    obtain ⟨e, b, hBinding, hAct, rfl, rfl⟩ := h.bound_eq_some.mp hBound
    obtain ⟨f, rfl⟩ := Binder.isFormal_symbol.mp hFormal
    obtain ⟨hMem, -⟩ := binding_eq_some hBinding
    exact ⟨e.toEvent, List.mem_map_of_mem hMem, Act.bindsFormal_iff.mpr ⟨f, hAct, rfl⟩⟩
  -- a formal in the journal is the first of its name, because formals come before all else
  · intro hHas
    obtain ⟨e, f, hBinding, hAct⟩ := h.formals k name hHas
    obtain ⟨-, b, hAct', rfl, -⟩ := binding_eq_some hBinding
    rw [hAct] at hAct'
    cases hAct'
    exact ⟨_, h.bound_eq_some.mpr ⟨e, _, hBinding, hAct, rfl, rfl⟩,
      Binder.isFormal_symbol.mpr ⟨f, rfl⟩⟩

/-- No formal in the table, none in the journal. -/
theorem not_hasFormal (h : Describes g journal c t)
    (hNone : ((t.scope (g + k)).lookup name).filter Symbol.isFormal = none) :
    ¬ HasFormal (journal.map Entry.toEvent) k name := by
  intro hHas
  obtain ⟨symbol, hBound, hFormal⟩ := h.isFormal_iff.mpr hHas
  rw [h.lookup, hBound, Option.filter_some_pos hFormal] at hNone
  cases hNone

/-- What a name means to the walk is what the journal says. -/
theorem lookup_eq_visible (h : Describes g journal c t) (name : String) :
    t.lookup name = visible journal c.around name := by
  rw [SymbolTable.lookup, h.stack, List.findSome?_map, visible]
  exact congrArg (fun f => c.around.findSome? f) (funext fun k => h.lookup k name)

/-- The innermost scope of the table is that of the cursor. -/
theorem here_eq (h : Describes g journal c t) {inner : ScopeId} {rest : List ScopeId}
    (hStack : t.stack = inner :: rest) : inner = g + c.here := by
  obtain ⟨k, outer, hAround⟩ := List.exists_cons_of_ne_nil h.covers.opened
  rw [h.stack, hAround, List.map_cons] at hStack
  rw [Cursor.here, hAround]
  exact (List.cons.inj hStack).1.symm

/-- The scopes of the journal have been made. -/
theorem made (h : Describes g journal c t) (hk : k < c.next) : g + k < t.store.length := by
  rw [h.count]
  exact Nat.add_lt_add_left hk g

/-! ### Steps that declare nothing -/

/-- The same scopes with a new cursor. -/
theorem of_scopes (h : Describes g journal c t) {c' : Cursor}
    (hCount : t'.store.length = g + c'.next) (hStack : t'.stack = c'.around.map (g + ·))
    (hCovers : c'.Covers (journal.map Entry.toEvent)) (hScopes : ∀ j, t'.scope j = t.scope j) :
    Describes g journal c' t' where
  count := hCount
  stack := hStack
  covers := hCovers
  lookup k name := by rw [hScopes, h.lookup]
  own := h.own
  formals := h.formals

/-- Opening a scope adds no entry. -/
theorem opens (h : Describes g journal c t) : Describes g journal (c.enter .opens) t.push.2 :=
  h.of_scopes (by rw [push_length, h.count]; rfl) (by rw [push_stack, h.stack, h.count]; rfl)
    h.covers.opens (push_scope t)

/-- Closing a scope adds no entry. -/
theorem closes (h : Describes g journal c t) {inner outer : ScopeId} {rest : List ScopeId}
    (hStack : t.stack = inner :: outer :: rest) :
    Describes g journal (c.enter .closes) { t with stack := outer :: rest } := by
  have hAround := h.stack
  rw [hStack] at hAround
  -- the numbers of the journal and the scopes of the table stand side by side
  obtain ⟨k, around, hCursor, -, hOuter⟩ := List.map_eq_cons_iff.mp hAround.symm
  have hOpened : around ≠ [] := by
    rintro rfl
    cases hOuter
  refine h.of_scopes h.count ?_ ?_ fun _ => rfl
  · show outer :: rest = c.around.tail.map (g + ·)
    rw [hCursor, List.tail_cons, hOuter]
  · exact
      { opened := by
          show c.around.tail ≠ []
          rwa [hCursor, List.tail_cons]
        around := fun j hj => h.covers.around j (List.mem_of_mem_tail hj)
        scopes := h.covers.scopes }

/-- A scope that is not opened, for the fields of a struct. -/
theorem newScope (h : Describes g journal c t) :
    Describes g journal ⟨c.next + 1, c.around⟩ t.newScope.2 :=
  h.of_scopes (by rw [newScope_length, h.count]; rfl) h.stack h.covers.skip (newScope_scope t)

/-! ### Entries -/

/-- An entry that binds nothing new. If it is that of a formal, the name is that of a formal
before. -/
theorem skip (h : Describes g journal c t) (hMade : ∀ k b, e.act = .bind k b → k < c.next)
    (hBound : ∀ k name, e.binds k name = true → (binding journal k name).isSome = true)
    (hFormal : ∀ k f, e.act = .bind k (.formal f) →
      ∃ e₀ f₀, binding journal k f.id.name = some e₀ ∧ e₀.act = .bind k (.formal f₀)) :
    Describes g (journal ++ [e]) c t := by
  -- no binding changes, as whatever the new entry binds is bound already
  have hBinding := binding_snoc_of_bound hBound
  have hEvents : (journal ++ [e]).map Entry.toEvent = journal.map Entry.toEvent ++ [e.toEvent] :=
    List.map_append
  exact
    { count := h.count
      stack := h.stack
      covers := hEvents ▸ h.covers.append (List.forall_mem_singleton.mpr hMade)
      lookup := fun k name => by rw [h.lookup, bound, bound, hBinding]
      own := fun k b e' he' => h.own k b e' (hBinding k _ ▸ he')
      formals := fun k name hHas => by
        rw [hBinding]
        rw [hEvents, hasFormal_append, hasFormal_singleton] at hHas
        rcases hHas with hHas | ⟨f, hAct, rfl⟩
        · exact h.formals k name hHas
        · exact hFormal k f hAct }

/-- An entry that binds its name to the symbol of its own declaration. -/
theorem extend (h : Describes g journal c t) (hAct : e.act = .bind k b) (hMade : k < c.next)
    (hErrors : e.errors = []) (hSymbol : e.result.symbol? = some (b.symbol g k))
    (hDeclared : t.declareIn (g + k) b.id.name (b.symbol g k) = some t') :
    Describes g (journal ++ [e]) c t' := by
  have hFree : binding journal k b.id.name = none := by
    rw [← h.bound_eq_none, ← h.lookup]
    exact (declareIn_eq_some hDeclared).1
  have hBinds : ∀ j name, e.binds j name = true ↔ j = k ∧ name = b.id.name := by
    intro j name
    rw [Entry.binds_iff, hAct]
    constructor
    · rintro ⟨b', hb', rfl, -⟩
      cases hb'
      exact ⟨rfl, rfl⟩
    · rintro ⟨rfl, rfl⟩
      exact ⟨b, rfl, rfl, hErrors⟩
  -- what was bound stays bound by its old entry, and the new entry binds a free name
  have hEvents : (journal ++ [e]).map Entry.toEvent = journal.map Entry.toEvent ++ [e.toEvent] :=
    List.map_append
  have hOld : ∀ {j name e₀}, binding journal j name = some e₀ →
      binding (journal ++ [e]) j name = some e₀ := fun hBinding => by
    rw [binding_snoc, hBinding, Option.some_or]
  have hNew : binding (journal ++ [e]) k b.id.name = some e := by
    rw [binding_snoc, hFree, Option.none_or, if_pos ((hBinds k _).mpr ⟨rfl, rfl⟩)]
  exact
    { count := by rw [declareIn_length hDeclared, h.count]
      stack := by rw [(declareIn_eq_some hDeclared).2.1, h.stack]
      covers := hEvents ▸ h.covers.append (List.forall_mem_singleton.mpr fun j b' hb' => by
        rw [hAct] at hb'
        cases hb'
        exact hMade)
      lookup := fun j name => by
        rw [lookup_declareIn_eq (h.made hMade) hDeclared, h.lookup]
        cases hBinding : binding journal j name with
        | some e₀ =>
          obtain ⟨symbol, hBound⟩ := Option.ne_none_iff_exists'.mp fun hNone =>
            Option.some_ne_none e₀ (hBinding.symm.trans (h.bound_eq_none.mp hNone))
          rw [hBound, Option.some_or, ← hBound, bound, bound, hBinding, hOld hBinding]
        | none =>
          -- the entry is the only one that may bind the name
          rw [h.bound_eq_none.mpr hBinding, Option.none_or, bound, binding_snoc, hBinding,
            Option.none_or]
          simp only [hBinds, Nat.add_left_cancel_iff, eq_comm (a := name)]
          split
          · exact hSymbol.symm
          · rfl
      own := fun j b' e' he' hAct' => by
        rw [binding_snoc] at he'
        cases hBinding : binding journal j b'.id.name with
        | some e₀ =>
          rw [hBinding, Option.some_or] at he'
          exact h.own j b' e' (hBinding.trans he') hAct'
        | none =>
          rw [hBinding, Option.none_or, Option.ite_none_right_eq_some] at he'
          obtain rfl := Option.some.inj he'.2
          rw [hAct] at hAct'
          cases hAct'
          exact hSymbol
      formals := fun j name hHas => by
        rw [hEvents, hasFormal_append, hasFormal_singleton] at hHas
        rcases hHas with hHas | ⟨f, hAct', rfl⟩
        · obtain ⟨e₀, f, hBinding, hFormal⟩ := h.formals j name hHas
          exact ⟨e₀, f, hOld hBinding, hFormal⟩
        · have hBind : Act.bind k b = .bind j (.formal f) := hAct.symm.trans hAct'
          cases hBind
          exact ⟨e, f, hNew, hAct⟩ }

end Describes

end Journal

end NameResolution
