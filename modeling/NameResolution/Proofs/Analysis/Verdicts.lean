import NameResolution.Proofs.Analysis.Journal
import NameResolution.Proofs.Analysis.Kinds

/-!
# Verdicts — what becomes of every declaration

The declarations of a scope are judged one after another, each by what stands in front of it. A
variable may be named like a formal of the same function, once, and then it stands for the formal.
For all other declarations the tests come in a fixed order, and the first that fails is reported.
So each scope binds each name to the first declaration of it that is found good.

* `Journal.verdict` — the verdict about a declaration, from the journal in front of it.
* `Entry.Obeys` — the declaration is annotated and reported as the verdict says.
* `Run.told` — a run writes a journal in which every entry is explained.
* `declarations_obey_verdicts` — the journal of an analysis, and what its scopes bind in the end.
-/

namespace NameResolution

open Analysis SymbolTable Journal

/-! ## Verdicts -/

/-- What a declaration comes to. -/
inductive Verdict where
  /-- The variable is the first one with the name of a formal, and stands for it. -/
  | formal
  /-- The variable is a further one with the name of a formal. -/
  | repeated
  | void
  /-- Under the name in the type no struct is visible. -/
  | noStruct (type : Ident)
  /-- The scope binds the name already. -/
  | taken
  | new
deriving DecidableEq, Repr

namespace Verdict

/-- The errors in a declaration of `id`. -/
def errors (id : Ident) : Verdict → List Diagnostic
  | formal | new => []
  | repeated | taken => [.located .multiplyDeclared id.pos]
  | void => [.located .declaredVoid id.pos]
  | noStruct type => [.located .invalidStructType type.pos]

/-- The declared name afterwards, when its scope bound it to `there` before, and `own` is the symbol
that the declaration would introduce. -/
def ident (there : Option Symbol) (own : Symbol) (id : Ident) : Verdict → Ident
  | formal => { id with symbol? := there }
  | new => id.bind own
  | repeated | void | noStruct _ | taken => id

end Verdict

namespace Journal

/-- The name in a type, if it should be that of a struct and no struct is visible under it. -/
def missingStruct (earlier : List Entry) (around : List Nat) : TypeRef → Option Ident
  | .struct id =>
    if (visible earlier around id.name).any Symbol.isStructDecl then none else some id
  | .boolean | .integer | .void => none

/-- A scope takes each name once. -/
def nameVerdict (earlier : List Entry) (k : Nat) (name : String) : Verdict :=
  if (bound earlier k name).isSome then .taken else .new

/-- Variables and fields: formals of the name, the type, and other declarations of the name. -/
def varVerdict (earlier : List Entry) (around : List Nat) (k : Nat) (d : VarDecl) : Verdict :=
  if HasFormal (earlier.map Entry.toEvent) k d.id.name then
    if HasVar (earlier.map Entry.toEvent) k d.id.name then .repeated else .formal
  else if d.type = .void then .void
  else
    match missingStruct earlier around d.type with
    | some type => .noStruct type
    | none => nameVerdict earlier k d.id.name

/-- The verdict about a declaration in the scope `k`, behind some entries. -/
def verdict (earlier : List Entry) (around : List Nat) (k : Nat) : Binder → Verdict
  | .var d => varVerdict earlier around k d
  | .formal f => nameVerdict earlier k f.id.name
  | .func id _ _ => nameVerdict earlier k id.name
  | .struct id _ => nameVerdict earlier k id.name

end Journal

/-- A declaration is annotated and reported as the verdict about it says. -/
def Entry.Obeys (g : ScopeId) (earlier : List Entry) (e : Entry) : Prop :=
  ∀ k b, e.act = .bind k b →
    e.errors = (verdict earlier e.around k b).errors b.id ∧
      ∃ b', e.result = .bind k b' ∧
        b'.id = (verdict earlier e.around k b).ident (bound earlier k b.id.name) (b.symbol g k) b.id

variable {g : ScopeId} {journal : List Entry} {c : Cursor} {t t' : SymbolTable} {k : Nat}
  {b b' : Binder} {id id' : Ident} {d d' : VarDecl} {errors : List Diagnostic}
  {part part' : Part} {parts parts' : List Part} {tables : List ScopeId}

/-- The entry of a declaration. -/
def Entry.ofBinder (around : List Nat) (k : Nat) (b b' : Binder) (errors : List Diagnostic) :
    Entry :=
  ⟨⟨around, .bind k b⟩, .bind k b', errors⟩

/-! ## Single declarations -/

/-- An entry obeys its verdict if its errors and its name do. -/
theorem Entry.obeys_ofBinder (around : List Nat)
    (hErrors : errors = (verdict journal around k b).errors b.id)
    (hIdent : b'.id =
      (verdict journal around k b).ident (bound journal k b.id.name) (b.symbol g k) b.id) :
    (Entry.ofBinder around k b b' errors).Obeys g journal := by
  rintro j b₀ ⟨⟩
  exact ⟨hErrors, b', rfl, hIdent⟩

namespace Journal.Describes

/-- The entry of a declaration with an error binds nothing. In front of a formal there must be
formals only. -/
theorem refuse (h : Describes g journal c t) (hMade : k < c.next) {error : Diagnostic}
    (hFormal : ∀ f, b = .formal f →
      ∃ e₀ f₀, binding journal k f.id.name = some e₀ ∧ e₀.act = .bind k (.formal f₀)) :
    Describes g (journal ++ [.ofBinder c.around k b b' [error]]) c t := by
  refine h.skip ?_ ?_ ?_
  -- the entry has an error, so it binds nothing
  · rintro j b₀ ⟨⟩
    exact hMade
  · intro j name hBinds
    obtain ⟨b₀, -, -, hErrors⟩ := Entry.binds_iff.mp hBinds
    cases hErrors
  · rintro j f ⟨⟩
    exact hFormal f rfl

/-- A name is bound, or refused because its scope binds it already. -/
theorem declares (h : Describes g journal c t) (hMade : k < c.next) (b b' : Binder)
    (hId : b'.id = id')
    (hFormal : ∀ f, b = .formal f → ∀ e ∈ journal, ∀ b₀, e.act = .bind k b₀ → ∃ f₀, b₀ = .formal f₀)
    (hDeclares : Declares (g + k) b.id (b.meaning g) t id' t' errors) :
    Describes g (journal ++ [.ofBinder c.around k b b' errors]) c t' ∧
      errors = (nameVerdict journal k b.id.name).errors b.id ∧
      b'.id = (nameVerdict journal k b.id.name).ident (bound journal k b.id.name) (b.symbol g k)
        b.id := by
  cases hDeclares with
  | taken hTaken =>
    have hBound := declareIn_eq_none.mp hTaken
    rw [h.lookup] at hBound
    rw [nameVerdict, if_pos hBound]
    refine ⟨h.refuse hMade fun f hb => ?_, rfl, hId⟩
    subst hb
    -- the declaration that is in the way is that of a formal, too
    obtain ⟨e₀, he₀⟩ := Option.isSome_iff_exists.mp (h.binding_isSome hBound)
    obtain ⟨hMem, b₀, hAct, -, -⟩ := binding_eq_some he₀
    obtain ⟨f₀, rfl⟩ := hFormal f rfl e₀ hMem b₀ hAct
    exact ⟨e₀, f₀, he₀, hAct⟩
  | bound hBound =>
    have hFree : bound journal k b.id.name = none := by
      rw [← h.lookup]
      exact (declareIn_eq_some hBound).1
    rw [nameVerdict, hFree]
    exact ⟨h.extend rfl hMade rfl (congrArg Ident.symbol? hId) hBound, rfl, hId⟩

end Journal.Describes

theorem TypeRef.Gives.meaning_eq {type type' : TypeRef} {meaning : Meaning}
    (h : TypeRef.Gives t type type' meaning) : type.meaning = meaning := by
  cases h <;> rfl

/-- A struct is missing where the walk finds none. -/
theorem Journal.Describes.isSome_lookupStruct (h : Describes g journal c t) (name : String) :
    (t.lookupStruct name).isSome = (visible journal c.around name).any Symbol.isStructDecl := by
  rw [lookupStruct, h.lookup_eq_visible, Option.isSome_filter]

/-- A type from which a meaning comes is a good one. -/
theorem TypeRef.Gives.good {type type' : TypeRef} {meaning : Meaning}
    (h : TypeRef.Gives t type type' meaning) (hDescribes : Describes g journal c t) :
    type ≠ .void ∧ missingStruct journal c.around type = none := by
  cases h with
  | boolean | integer => exact ⟨by rintro ⟨⟩, rfl⟩
  | struct hStruct =>
    refine ⟨by rintro ⟨⟩, ?_⟩
    rw [missingStruct, ← hDescribes.isSome_lookupStruct, hStruct, Option.isSome_some, if_pos rfl]

namespace Journal.Describes

/-- A variable or a field is judged by the tests in their order. A variable named like a formal must
be the first one. -/
theorem outcome (h : Describes g journal c t) (hMade : k < c.next)
    (hFirst : HasFormal (journal.map Entry.toEvent) k d.id.name →
      ¬ HasVar (journal.map Entry.toEvent) k d.id.name)
    (hOutcome : d.Outcome t (g + k) d' t' errors) :
    Describes g (journal ++ [.ofBinder c.around k (.var d) (.var d') errors]) c t' ∧
      (Entry.ofBinder c.around k (.var d) (.var d') errors).Obeys g journal := by
  cases hOutcome with
  | @formal symbol hFound hFormal =>
    rw [h.lookup] at hFound
    have hHas := h.isFormal_iff.mp ⟨symbol, hFound, hFormal⟩
    have hVerdict : varVerdict journal c.around k d = .formal := by
      rw [varVerdict, if_pos hHas, if_neg (hFirst hHas)]
    -- the entry has no error, but the name is bound before
    refine ⟨h.skip ?_ ?_ ?_, Entry.obeys_ofBinder _ ?_ ?_⟩
    · rintro j b₀ ⟨⟩
      exact hMade
    · intro j name hBinds
      obtain ⟨b₀, hAct, rfl, -⟩ := Entry.binds_iff.mp hBinds
      cases hAct
      exact h.binding_isSome (Option.isSome_iff_exists.mpr ⟨symbol, hFound⟩)
    · rintro j f ⟨⟩
    · rw [verdict, hVerdict]
      rfl
    · rw [verdict, hVerdict]
      show d.id.bind symbol = { d.id with symbol? := bound journal k d.id.name }
      rw [hFound]
      rfl
  -- the other outcomes are those of names without a formal
  | void hFormal hType =>
    have hVerdict : varVerdict journal c.around k d = .void := by
      rw [varVerdict, if_neg (h.not_hasFormal hFormal), if_pos hType]
    refine ⟨h.refuse hMade (by rintro f ⟨⟩), Entry.obeys_ofBinder _ ?_ ?_⟩ <;>
      rw [verdict, hVerdict] <;> rfl
  | @noStruct structId hFormal hType hStruct =>
    have hMissing : missingStruct journal c.around d.type = some structId := by
      rw [hType, missingStruct, ← h.isSome_lookupStruct, hStruct, Option.isSome_none,
        if_neg Bool.false_ne_true]
    have hVerdict : varVerdict journal c.around k d = .noStruct structId := by
      rw [varVerdict, if_neg (h.not_hasFormal hFormal), if_neg (by rw [hType]; rintro ⟨⟩), hMissing]
    refine ⟨h.refuse hMade (by rintro f ⟨⟩), Entry.obeys_ofBinder _ ?_ ?_⟩ <;>
      rw [verdict, hVerdict] <;> rfl
  | @typed type' meaning id' t' errors hFormal hGives hDeclares =>
    obtain ⟨hVoid, hStruct⟩ := hGives.good h
    have hVerdict : varVerdict journal c.around k d = nameVerdict journal k d.id.name := by
      rw [varVerdict, if_neg (h.not_hasFormal hFormal), if_neg hVoid, hStruct]
    rw [← hGives.meaning_eq] at hDeclares
    obtain ⟨hNext, hErrors, hIdent⟩ := h.declares hMade (.var d)
      (.var { d with type := type', id := id' }) rfl (by rintro f ⟨⟩) hDeclares
    refine ⟨hNext, Entry.obeys_ofBinder _ ?_ ?_⟩
    · rw [verdict, hVerdict]
      exact hErrors
    · rw [verdict, hVerdict]
      exact hIdent

/-- The innermost scope binds what the journal says. -/
theorem lookupLocal_eq (h : Describes g journal c t) (name : String) :
    t.lookupLocal name = bound journal c.here name := by
  obtain ⟨k, outer, hAround⟩ := List.exists_cons_of_ne_nil h.covers.opened
  rw [lookupLocal, h.stack, Cursor.here, hAround, ← h.lookup]
  rfl

/-- A further variable named like a formal. -/
theorem repeated (h : Describes g journal c t)
    (hFormal : (t.lookupLocal d.id.name).any Symbol.isFormal = true)
    (hVar : HasVar (journal.map Entry.toEvent) c.here d.id.name) :
    Describes g (journal ++ [.ofBinder c.around c.here (.var d) (.var d)
        [.located .multiplyDeclared d.id.pos]]) c t ∧
      (Entry.ofBinder c.around c.here (.var d) (.var d)
        [.located .multiplyDeclared d.id.pos]).Obeys g journal := by
  have hHas : HasFormal (journal.map Entry.toEvent) c.here d.id.name := by
    refine h.isFormal_iff.mp ?_
    rw [h.lookupLocal_eq] at hFormal
    -- the name has to be bound there, as it is bound to a formal
    cases hBound : bound journal c.here d.id.name with
    | none =>
      rw [hBound] at hFormal
      cases hFormal
    | some symbol =>
      rw [hBound] at hFormal
      exact ⟨symbol, rfl, hFormal⟩
  have hVerdict : varVerdict journal c.around c.here d = .repeated := by
    rw [varVerdict, if_pos hHas, if_pos hVar]
  refine ⟨h.refuse h.covers.here_lt (by rintro f ⟨⟩), Entry.obeys_ofBinder _ ?_ ?_⟩ <;>
    rw [verdict, hVerdict] <;> rfl

end Journal.Describes

/-! ## Steps -/

/-- What is known of an entry: a declaration obeys its verdict, and a use was looked up in a table
that the journal tells of. -/
structure Entry.Explained (g : ScopeId) (earlier : List Entry) (e : Entry) : Prop where
  obeys : e.Obeys g earlier
  formals : ∀ k name, HasFormal (earlier.map Entry.toEvent) k name ↔
    ∃ symbol, bound earlier k name = some symbol ∧ symbol.isFormal = true
  use : ∀ spot, e.act = .use spot → ∃ c t tables, c.around = e.around ∧
    Describes g earlier c t ∧ t.Kinds g tables ∧
    e.result = .use (spot.annotate t) ∧ e.errors = spot.diagnose t

/-- Every entry is explained by those in front of it. -/
def Explains (g : ScopeId) (earlier : List Entry) : List Entry → Prop
  | [] => True
  | e :: more => e.Explained g earlier ∧ Explains g (earlier ++ [e]) more

/-- The entries are those of some events before and after the walk, with its errors. -/
structure Tells (g : ScopeId) (journal more : List Entry) (before after : List Event)
    (errors : List Diagnostic) : Prop where
  before : more.map Entry.toEvent = before
  after : more.map Entry.after = after
  errors : more.flatMap Entry.errors = errors
  explains : Explains g journal more

/-- A journal that explains itself may be followed by entries that it explains. -/
theorem Explains.append {more rest : List Entry} (h : Explains g journal more)
    (hRest : Explains g (journal ++ more) rest) : Explains g journal (more ++ rest) := by
  induction more generalizing journal with
  | nil =>
    rw [List.append_nil] at hRest
    exact hRest
  | cons e more ih =>
    refine ⟨h.1, ih h.2 ?_⟩
    rwa [List.append_assoc]

/-- An entry is explained by what is in front of it. -/
theorem Explains.entry {earlier later : List Entry} {e : Entry}
    (h : Explains g journal (earlier ++ e :: later)) : e.Explained g (journal ++ earlier) := by
  induction earlier generalizing journal with
  | nil =>
    rw [List.append_nil]
    exact h.1
  | cons e₀ earlier ih =>
    have hEntry := ih h.2
    rwa [List.append_assoc] at hEntry

theorem Tells.nil (g : ScopeId) (journal : List Entry) : Tells g journal [] [] [] [] :=
  ⟨rfl, rfl, rfl, trivial⟩

/-- One entry tells of its own event. -/
theorem Tells.single {e : Entry} (h : e.Explained g journal) :
    Tells g journal [e] [e.toEvent] [e.after] e.errors :=
  ⟨rfl, rfl, List.flatMap_singleton .., h, trivial⟩

/-- What two runs of entries tell of comes in the same order. -/
theorem Tells.append {more rest : List Entry} {before after before' after' : List Event}
    {errors' : List Diagnostic} (h : Tells g journal more before after errors)
    (hRest : Tells g (journal ++ more) rest before' after' errors') :
    Tells g journal (more ++ rest) (before ++ before') (after ++ after') (errors ++ errors') where
  before := by rw [List.map_append, h.before, hRest.before]
  after := by rw [List.map_append, h.after, hRest.after]
  errors := by rw [List.flatMap_append, h.errors, hRest.errors]
  explains := h.explains.append hRest.explains

/-- An entry that obeys its verdict is explained. -/
theorem Journal.Describes.explained (h : Describes g journal c t) {around : List Nat}
    (hObeys : (Entry.ofBinder around k b b' errors).Obeys g journal) :
    (Entry.ofBinder around k b b' errors).Explained g journal :=
  ⟨hObeys, fun _ _ => h.isFormal_iff.symm, by rintro spot ⟨⟩⟩

/-- The fields of a struct, in a scope in which there are no formals. -/
theorem Outcomes.told {ds ds' : List VarDecl} (hOutcomes : Outcomes (g + k) t ds t' ds' errors)
    (h : Describes g journal c t) (hMade : k < c.next)
    (hNone : ∀ e ∈ journal.map Entry.toEvent, ∀ f, e.act ≠ .bind k (.formal f)) :
    ∃ more, Tells g journal more (ds.map fun d => ⟨c.around, .bind k (.var d)⟩)
        (ds'.map fun d => ⟨c.around, .bind k (.var d)⟩) errors ∧
      Describes g (journal ++ more) c t' := by
  -- induction on the fields; each one is judged by the journal that the ones before it have
  -- extended
  induction hOutcomes generalizing journal with
  | nil t =>
    refine ⟨[], .nil g journal, ?_⟩
    rwa [List.append_nil]
  | cons hHead _ ih =>
    have hFirst := not_hasFormal hNone
    obtain ⟨hNext, hObeys⟩ := h.outcome hMade (fun hHas => absurd hHas (hFirst _)) hHead
    obtain ⟨more, hTells, hLast⟩ := ih hNext <| by
      rw [List.map_append]
      refine List.forall_mem_append.mpr ⟨hNone, List.forall_mem_singleton.mpr ?_⟩
      rintro f ⟨⟩
    refine ⟨_ :: more, (Tells.single (h.explained hObeys)).append hTells, ?_⟩
    rw [List.append_cons]
    exact hLast

/-- The struct has its name in the innermost scope, and its fields in one of their own. -/
theorem Journal.Describes.struct {s : StructDecl} {fields' : List VarDecl} {t₁ t₂ : SymbolTable}
    {errors₁ errors₂ : List Diagnostic} (h : Describes g journal c t)
    (hName : Declares (g + c.here) s.id (.structDecl t.store.length) t.newScope.2 id' t₁ errors₁)
    (hFields : Outcomes t.store.length t₁ s.fields t₂ fields' errors₂) :
    ∃ more, Tells g journal more (Part.events c (.struct s))
        (Part.events c (.struct ⟨id', fields'⟩)) (errors₁ ++ errors₂) ∧
      Describes g (journal ++ more) (c.enter (.struct s)) t₂ := by
  have hBinder : Meaning.structDecl t.store.length = (Binder.struct s.id c.next).meaning g := by
    rw [h.count]
    rfl
  rw [hBinder] at hName
  rw [h.count] at hFields
  obtain ⟨hNext, hErrors, hIdent⟩ := h.newScope.declares (Nat.lt_succ_of_lt h.covers.here_lt)
    (.struct s.id c.next) (.struct id' c.next) rfl (by rintro f ⟨⟩) hName
  have hObeys := Entry.obeys_ofBinder c.around hErrors hIdent
  obtain ⟨more, hTells, hLast⟩ := hFields.told hNext (Nat.lt_succ_self c.next) <| by
    -- the number of the fields' scope is new
    intro e he f hAct
    rw [List.map_append] at he
    rcases List.mem_append.mp he with he | he
    · exact Nat.lt_irrefl _ (h.covers.scopes e he c.next _ hAct)
    · obtain rfl := List.mem_singleton.mp he
      cases (Act.bind.inj hAct).2
  refine ⟨_ :: more, (Tells.single (h.explained hObeys)).append hTells, ?_⟩
  rw [List.append_cons]
  exact hLast

/-- A use binds nothing, and is looked up in the table as it is. -/
theorem Journal.Describes.use (h : Describes g journal c t) (hKinds : t.Kinds g tables)
    (spot : Spot) :
    ∃ more, Tells g journal more (Part.events c (.use spot))
        (Part.events c (.use (spot.annotate t))) (spot.diagnose t) ∧
      Describes g (journal ++ more) c t := by
  have hExplained : Entry.Explained g journal
      ⟨⟨c.around, .use spot⟩, .use (spot.annotate t), spot.diagnose t⟩ := by
    refine ⟨by rintro k b ⟨⟩, fun _ _ => h.isFormal_iff.symm, ?_⟩
    rintro spot' ⟨⟩
    exact ⟨c, t, tables, rfl, h, hKinds, rfl, rfl⟩
  exact ⟨_, .single hExplained, h.skip (by rintro k b ⟨⟩) (by rintro k name ⟨⟩) (by rintro k f ⟨⟩)⟩

/-- A step writes the entries of its part. -/
theorem Part.Does.told (hDoes : part.Does t t' part' errors) (h : Describes g journal c t)
    (hKinds : t.Kinds g tables) (hFits : part.FitsBehind c (journal.map Entry.toEvent)) :
    ∃ more, Tells g journal more (part.events c) (part'.events c) errors ∧
      Describes g (journal ++ more) (c.enter part) t' := by
  have hHere := h.covers.here_lt
  cases hDoes with
  | opens => exact ⟨[], .nil g journal, (List.append_nil journal).symm ▸ h.opens⟩
  | closes hStack => exact ⟨[], .nil g journal, (List.append_nil journal).symm ▸ h.closes hStack⟩
  | @func _ id id' result params _ _ hStack hDeclares =>
    obtain rfl := h.here_eq hStack
    obtain ⟨hNext, hErrors, hIdent⟩ := h.declares hHere (.func id result params)
      (.func id' result params) rfl (by rintro f ⟨⟩) hDeclares
    exact ⟨_, .single (h.explained (Entry.obeys_ofBinder c.around hErrors hIdent)), hNext⟩
  | @formal _ _ f id' _ _ hStack hDeclares =>
    obtain rfl := h.here_eq hStack
    obtain ⟨hNext, hErrors, hIdent⟩ := h.declares hHere (.formal f)
      (.formal { f with id := id' }) rfl
      (fun _ _ e he b₀ hAct => hFits e.toEvent (List.mem_map_of_mem he) b₀ hAct) hDeclares
    exact ⟨_, .single (h.explained (Entry.obeys_ofBinder c.around hErrors hIdent)), hNext⟩
  | var hStack hOutcome =>
    obtain rfl := h.here_eq hStack
    obtain ⟨hNext, hObeys⟩ := h.outcome hHere hFits hOutcome
    exact ⟨_, .single (h.explained hObeys), hNext⟩
  | @again _ _ d _ _ _ hStack hFormal hOutcome =>
    obtain rfl := h.here_eq hStack
    -- the name is repeated, and the walk found no formal of it
    have hNone : ¬ HasFormal (journal.map Entry.toEvent) c.here d.id.name := fun hHas => by
      obtain ⟨symbol, hBound, hIs⟩ := h.isFormal_iff.mpr hHas
      rw [h.lookupLocal_eq, hBound, Option.any_some, hIs] at hFormal
      cases hFormal
    obtain ⟨hNext, hObeys⟩ := h.outcome hHere (fun hHas => absurd hHas hNone) hOutcome
    exact ⟨_, .single (h.explained hObeys), hNext⟩
  | repeated hFormal =>
    obtain ⟨hNext, hObeys⟩ := h.repeated hFormal hFits
    exact ⟨_, .single (h.explained hObeys), hNext⟩
  | struct hStack hName hFields =>
    obtain rfl := h.here_eq hStack
    exact h.struct hName hFields
  | use spot => exact h.use hKinds spot

/-- A part is annotated to one of the same shape. -/
theorem Part.Does.enter_eq (hDoes : part.Does t t' part' errors) (c : Cursor) :
    c.enter part' = c.enter part := by
  cases hDoes <;> rfl

/-- A run writes its journal. -/
theorem Run.told (hRun : Run t parts t' parts' errors) (h : Describes g journal c t)
    (hKinds : t.Kinds g tables) (hNested : WellNested t.stack.length parts)
    (hOrderly : Orderly c (journal.map Entry.toEvent) parts) :
    ∃ more, Tells g journal more (events c parts) (events c parts') errors ∧
      Describes g (journal ++ more) (c.behind parts) t' := by
  induction hRun generalizing journal c tables with
  | nil t =>
    refine ⟨[], .nil g journal, ?_⟩
    rwa [List.append_nil]
  | @cons t t₁ t₂ part part' parts parts' errors errors' hStep _ ih =>
    obtain ⟨hDepth, hAfter⟩ := hNested
    obtain ⟨hFits, hRest⟩ := hOrderly
    obtain ⟨first, hFirst, hNext⟩ := hStep.told h hKinds hFits
    -- the entries of the step are in front of the other parts
    rw [← hFirst.before, ← List.map_append] at hRest
    obtain ⟨more, hMore, hLast⟩ :=
      ih hNext (hStep.kinds hKinds hDepth) (hStep.depth_eq ▸ hAfter) hRest
    refine ⟨first ++ more, ?_, ?_⟩
    · rw [events, events, hStep.enter_eq]
      exact hFirst.append hMore
    · rw [← List.append_assoc]
      exact hLast

/-! ## Analyses -/

/-- The empty journal, in front of a program. -/
theorem Journal.Describes.restart (t : SymbolTable) :
    Describes t.store.length [] .start t.restart where
  count := restart_length t
  stack := restart_stack t
  covers :=
    { opened := List.cons_ne_nil _ _
      around := fun k hk => by
        obtain rfl := List.mem_singleton.mp hk
        exact Nat.zero_lt_one
      scopes := List.forall_mem_nil _ }
  -- nothing has been declared yet, so nothing is found
  lookup k name := by
    rw [restart_scope, scope_of_length_le (Nat.le_add_right _ _)]
    rfl
  own k b e h := by cases h
  formals k name h := by
    obtain ⟨e, he, -⟩ := h
    cases he

/-- An analysis does not fail and writes a journal. -/
theorem analyze_told (a : Analyzer) (p : Program) :
    ∃ q b journal, a.analyze p = .ok (q, b) ∧
      Tells a.table.store.length [] journal p.events q.events b.errors ∧
      ∃ c, Describes a.table.store.length journal c b.table := by
  obtain ⟨q, b, hAnalyze, hRun⟩ := analyze_runs a p
  obtain ⟨journal, hTells, hDescribes⟩ := hRun.told (.restart a.table) (.restart a.table)
    p.parts_wellNested p.parts_orderly
  exact ⟨q, b, journal, hAnalyze, hTells, _, hDescribes⟩

/-- **Declarations.** An analysis does not fail, and its errors are spread over a journal of the
program's declarations and uses. Each declaration is annotated and reported as the verdict about it
says, which goes by the entries in front of it. The name of a formal is bound to a formal, no other
is, and in the end each scope binds each name to the symbol of its first declaration without an
error. -/
theorem declarations_obey_verdicts (a : Analyzer) (p : Program) :
    ∃ q b journal, a.analyze p = .ok (q, b) ∧
      journal.map Entry.toEvent = p.events ∧ journal.map Entry.after = q.events ∧
      journal.flatMap Entry.errors = b.errors ∧
      (∀ earlier e later, journal = earlier ++ e :: later →
        e.Obeys a.table.store.length earlier ∧
          ∀ k name, HasFormal (earlier.map Entry.toEvent) k name ↔
            ∃ symbol, bound earlier k name = some symbol ∧ symbol.isFormal = true) ∧
      ∀ k name, (b.table.scope (a.table.store.length + k)).lookup name = bound journal k name := by
  obtain ⟨q, b, journal, hAnalyze, hTells, c, hDescribes⟩ := analyze_told a p
  refine ⟨q, b, journal, hAnalyze, hTells.before, hTells.after, hTells.errors, ?_,
    hDescribes.lookup⟩
  -- the journal is split at the entry, so what explains the entry is in front of it
  rintro earlier e later rfl
  have hEntry := hTells.explains.entry
  exact ⟨hEntry.obeys, hEntry.formals⟩

/-- `struct S [ integer a. void a. boolean a. ] struct T m. void n. integer S.`
`void f[integer x, boolean x][ struct S x. void x. struct S y. integer y. ]`: every verdict. -/
def judgedProgram : Program :=
  ⟨[.struct ⟨⟨⟨1, 8⟩, "S", none⟩,
      [⟨.integer, ⟨⟨2, 9⟩, "a", none⟩, true⟩, ⟨.void, ⟨⟨3, 6⟩, "a", none⟩, true⟩,
        ⟨.boolean, ⟨⟨4, 9⟩, "a", none⟩, true⟩]⟩,
    .var ⟨.struct ⟨⟨5, 8⟩, "T", none⟩, ⟨⟨5, 10⟩, "m", none⟩, false⟩,
    .var ⟨.void, ⟨⟨6, 6⟩, "n", none⟩, false⟩,
    .var ⟨.integer, ⟨⟨7, 9⟩, "S", none⟩, false⟩,
    .func
      { result := .void
        id := ⟨⟨8, 6⟩, "f", none⟩
        formals := [⟨.integer, ⟨⟨8, 16⟩, "x", none⟩⟩, ⟨.boolean, ⟨⟨9, 9⟩, "x", none⟩⟩]
        body := ⟨[⟨.struct ⟨⟨10, 8⟩, "S", none⟩, ⟨⟨10, 10⟩, "x", none⟩, false⟩,
          ⟨.void, ⟨⟨11, 6⟩, "x", none⟩, false⟩,
          ⟨.struct ⟨⟨12, 8⟩, "S", none⟩, ⟨⟨12, 10⟩, "y", none⟩, false⟩,
          ⟨.integer, ⟨⟨13, 9⟩, "y", none⟩, false⟩], []⟩ }]⟩

/-- The first `x` of the body is silent although its type differs, the second is reported. -/
theorem judgedProgram_declarations_obey :
    ((Analyzer.new.analyze judgedProgram).toOption.map fun answer =>
        answer.2.errors.map fun d => (d.kind, d.line?)) =
      some [(.declaredVoid, some 3), (.multiplyDeclared, some 4), (.invalidStructType, some 5),
        (.declaredVoid, some 6), (.multiplyDeclared, some 7), (.multiplyDeclared, some 9),
        (.multiplyDeclared, some 11), (.multiplyDeclared, some 13)] ∧
    ∃ q b journal, Analyzer.new.analyze judgedProgram = .ok (q, b) ∧
      journal.map Entry.toEvent = judgedProgram.events ∧ journal.map Entry.after = q.events ∧
      journal.flatMap Entry.errors = b.errors ∧
      (∀ earlier e later, journal = earlier ++ e :: later → e.Obeys 1 earlier ∧
        ∀ k name, HasFormal (earlier.map Entry.toEvent) k name ↔
          ∃ symbol, bound earlier k name = some symbol ∧ symbol.isFormal = true) ∧
      ∀ k name, (b.table.scope (1 + k)).lookup name = bound journal k name :=
  ⟨by decide +kernel, declarations_obey_verdicts Analyzer.new judgedProgram⟩

end NameResolution
