import NameResolution.Proofs.Analysis.Links
import NameResolution.Proofs.Analysis.Moments
import NameResolution.Proofs.Analysis.Simulation

/-!
# Sessions — one analyzer, many programs

An analyzer can be used again and again, on trees with symbols from earlier runs and on trees put
together from such trees. What a run finds does not depend on what was analyzed before. Only the
sink may remember: one that was handed over keeps the errors of all runs, one that belongs to the
analyzer those of the latest run.

* `Analyzer.analyzeAll` — the calls of a session.
* `SameFindings` — what two runs have found looks the same.
* `sessions_leave_no_trace` — every call of every session, and the sink at every moment.
-/

namespace NameResolution

open Analysis SymbolTable

/-! ## Findings that look the same -/

/-- A way to replace symbols by others that look like them; symbols that differ still do. -/
structure LooksSame (f : Symbol → Symbol) : Prop where
  injective : Function.Injective f
  category : ∀ s, (f s).category = s.category
  text : ∀ s, (f s).text = s.text
  undefined : f .undefined = .undefined

/-- A shifted symbol is shown like the symbol. -/
theorem Symbol.shift_looksSame (n : Nat) : LooksSame (Symbol.shift n) where
  injective := Symbol.shift_injective n
  category := Symbol.category_shift
  text := Symbol.text_shift
  undefined := Symbol.shift_undefined

/-- The identifier with another symbol in the place of its own. -/
def Ident.mapSymbol (f : Symbol → Symbol) (id : Ident) : Ident :=
  { id with symbol? := id.symbol?.map f }

/-- Two runs have found the same: the same errors, scopes that look the same, on each use of a name
a symbol that looks the same, with the same symbols shared among the uses, and the same printed
text. -/
structure SameFindings (q : Program) (b : Analyzer) (q₀ : Program) (b₀ : Analyzer) : Prop where
  errors : b.errors = b₀.errors
  text : b.table.text = b₀.table.text
  depth : b.table.depth = b₀.table.depth
  uses : ∃ f, LooksSame f ∧ q.usedNames = q₀.usedNames.map (Ident.mapSymbol f)
  print : ∀ annotate, q.print annotate = q₀.print annotate

variable {n : Nat} {g : ScopeId} {a b b₀ : Analyzer} {p q q₀ : Program}

/-- Declarations that agree are the same tree but for what is put on its names. -/
theorem retouch_eq (h : List.Forall₂ (DeclAgrees n) q.decls q₀.decls) :
    q.retouch Ident.bare id = q₀.retouch Ident.bare (Ident.shift n) := by
  obtain ⟨decls⟩ := q
  obtain ⟨decls₀⟩ := q₀
  refine congrArg Program.mk ?_
  dsimp only at h
  induction h with
  | nil => rfl
  | cons hHead _ ih => rw [List.map_cons, List.map_cons, hHead.same, ih]

/-- A name is printed the same, whatever number its scope has. -/
theorem Ident.print_shift (annotate : Bool) (id : Ident) :
    (id.shift n).print annotate = id.print annotate := by
  obtain ⟨pos, name, symbol?⟩ := id
  cases symbol? <;> simp [print, shift]

theorem SameFindings.of_shifted (hErrors : b.errors = b₀.errors)
    (hShifted : Shifted n g b.table b₀.table)
    (hAgree : List.Forall₂ (DeclAgrees n) q.decls q₀.decls) : SameFindings q b q₀ b₀ where
  errors := hErrors
  text := hShifted.text_eq
  depth := hShifted.depth_eq
  uses := by
    -- the uses are those of the retouched tree, whose declarations carry no symbols
    have hUsed := congrArg Program.usedNames (retouch_eq hAgree)
    rw [Program.usedNames_retouch, Program.usedNames_retouch, List.map_id] at hUsed
    exact ⟨Symbol.shift n, Symbol.shift_looksSame n, hUsed⟩
  print annotate := by
    have hNames : ∀ id : Ident, id.bare.name = id.name := fun _ => rfl
    have hPrint := congrArg (Program.print annotate) (retouch_eq hAgree)
    have hSame : ∀ name : Ident, (id name).print annotate = name.print annotate := fun _ => rfl
    rwa [Program.print_retouch hNames hSame,
      Program.print_retouch hNames (Ident.print_shift annotate)] at hPrint

/-! ## One call -/

/-- The run of a new analyzer on the program without symbols has found the same. -/
def LikeNew (p q : Program) (b : Analyzer) : Prop :=
  ∃ q₀ b₀, Analyzer.new.analyze p.bare = .ok (q₀, b₀) ∧ SameFindings q b q₀ b₀

/-- Whatever was analyzed before, a run succeeds and finds what a new analyzer finds. -/
theorem analyze_likeNew (hMade : a.table.store ≠ []) (p : Program) :
    ∃ q b, a.analyze p = .ok (q, b) ∧ b.table.store ≠ [] ∧ LikeNew p q b := by
  -- a new analyzer has made one scope, this one has made others besides
  have hLength : a.table.store.length = Analyzer.new.table.store.length +
      (a.table.store.length - 1) :=
    (Nat.add_sub_cancel' (List.length_pos_iff.mpr hMade)).symm
  obtain ⟨q, b, q₀, b₀, hAnalyze, hAnalyze₀, hErrors, hShifted, hAgree⟩ := analyze_mimics hLength p
  refine ⟨q, b, hAnalyze, ?_, q₀, b₀, hAnalyze₀, .of_shifted hErrors hShifted hAgree⟩
  obtain ⟨k, hk⟩ := List.exists_mem_of_ne_nil _ hShifted.opened
  rw [← List.length_pos_iff, hShifted.length]
  exact Nat.lt_of_lt_of_le (Nat.zero_lt_of_lt (hShifted.made k hk).2) (Nat.le_add_right _ _)

/-! ## Sessions -/

/-- One call in a session. -/
structure Call where
  before : Analyzer
  program : Program
  answer : Program
  after : Analyzer

/-- Analyzes one program after another. -/
def Analyzer.analyzeAll (a : Analyzer) : List Program → Except ScopeError (List Call)
  | [] => pure []
  | p :: ps => do
    let (q, b) ← a.analyze p
    let calls ← b.analyzeAll ps
    pure (⟨a, p, q, b⟩ :: calls)

/-- An analyzer before its first call, with a sink if one is handed over. -/
def Analyzer.starting : Option Collector → Analyzer
  | none => .new
  | some sink => .reportingTo sink

/-- A session is its first call and then the others. -/
theorem analyzeAll_cons {ps : List Program} {calls : List Call}
    (hFirst : a.analyze p = .ok (q, b)) (hRest : b.analyzeAll ps = .ok calls) :
    a.analyzeAll (p :: ps) = .ok (⟨a, p, q, b⟩ :: calls) := by
  rw [Analyzer.analyzeAll, hFirst]
  show (b.analyzeAll ps >>= fun calls => pure (⟨a, p, q, b⟩ :: calls)) = _
  rw [hRest]
  rfl

/-- A session succeeds, and each of its calls finds what a new analyzer finds. -/
theorem analyzeAll_likeNew (hMade : a.table.store ≠ []) (ps : List Program) :
    ∃ calls, a.analyzeAll ps = .ok calls ∧ calls.map Call.program = ps ∧
      ∀ call ∈ calls, LikeNew call.program call.answer call.after := by
  induction ps generalizing a with
  | nil => exact ⟨[], rfl, rfl, List.forall_mem_nil _⟩
  | cons p ps ih =>
    obtain ⟨q, b, hAnalyze, hMade', hLike⟩ := analyze_likeNew hMade p
    obtain ⟨calls, hCalls, hPrograms, hAll⟩ := ih hMade'
    refine ⟨_, analyzeAll_cons hAnalyze hCalls, ?_, List.forall_mem_cons.mpr ⟨hLike, hAll⟩⟩
    rw [List.map_cons, hPrograms]

/-- What the sink holds when a run begins: a sink of the analyzer's own is emptied, another one
keeps what it held before the session and the errors of all earlier calls. -/
def heldBefore (a : Analyzer) (done : List Call) : List Diagnostic :=
  if a.ownsSink then [] else a.sink.diagnostics ++ done.flatMap (·.after.errors)

/-- The run of a call ends in what its analyzer keeps, and it begins with the sink that the calls
before it have left. -/
theorem analyzeAll_run {ps : List Program} {calls done later : List Call} {call : Call}
    (h : a.analyzeAll ps = .ok calls) (hMade : a.table.store ≠ [])
    (hCalls : calls = done ++ call :: later) :
    call.program.resolve.run call.before.start =
        .ok (call.answer, ⟨call.after.table, call.after.errors, call.after.sink⟩) ∧
      call.before.start.sink.diagnostics = heldBefore a done := by
  induction ps generalizing a calls done with
  | nil =>
    obtain rfl : calls = [] := (Except.ok.inj h).symm
    exact absurd hCalls.symm (List.append_ne_nil_of_right_ne_nil _ (List.cons_ne_nil _ _))
  | cons p ps ih =>
    obtain ⟨q, b, hAnalyze, hMade', -⟩ := analyze_likeNew hMade p
    obtain ⟨rest, hRest, -⟩ := analyzeAll_likeNew hMade' ps
    obtain ⟨hOwner, hRun⟩ := analyze_run hAnalyze
    rw [analyzeAll_cons hAnalyze hRest] at h
    obtain rfl := Except.ok.inj h
    cases done with
    | nil =>
      -- the call is the first one
      obtain ⟨rfl, -⟩ := List.cons.inj hCalls
      refine ⟨hRun, ?_⟩
      rw [Analyzer.start, heldBefore]
      split <;> simp
    | cons first done =>
      obtain ⟨rfl, hDone⟩ := List.cons.inj hCalls
      -- the rest of the session begins with what the first call has left
      obtain ⟨hLast, hHeld⟩ := ih hRest hMade' hDone
      refine ⟨hLast, ?_⟩
      have hSink : b.sink.diagnostics = a.start.sink.diagnostics ++ b.errors :=
        moments_reported (passes_end hRun)
      rw [hHeld, heldBefore, heldBefore, hOwner, hSink, Analyzer.start]
      split <;> simp

/-- At each moment of a call the sink holds what the call has reported so far; before that, if it
was handed over, what it held at the beginning and the errors of all earlier calls. The last moment
of a call is the one whose errors and sink the analyzer keeps. -/
def SinkHolds (sink? : Option Collector) (calls : List Call) : Prop :=
  ∀ done call later, calls = done ++ call :: later →
    -- one may look at the sink between any two steps of the call
    (∀ moment, Passes call.program.resolve call.before.start moment →
      moment.diagnostics <+: call.after.errors ∧
        moment.sink.diagnostics = match sink? with
          | none => moment.diagnostics
          | some sink =>
            sink.diagnostics ++ done.flatMap (fun earlier => earlier.after.errors) ++
              moment.diagnostics) ∧
      Passes call.program.resolve call.before.start
        ⟨call.after.table, call.after.errors, call.after.sink⟩

/-- **No traces.** A session does not fail, whatever symbols its programs carry, with or without a
sink handed over. Each of its calls finds what a new analyzer finds in the same program without
symbols, and the sink holds the errors of the latest call or those of all calls. -/
theorem sessions_leave_no_trace (sink? : Option Collector) (ps : List Program) :
    ∃ calls, (Analyzer.starting sink?).analyzeAll ps = .ok calls ∧
      calls.map Call.program = ps ∧
      (∀ call ∈ calls, LikeNew call.program call.answer call.after) ∧ SinkHolds sink? calls := by
  -- a global scope is open from the start, so the first call has something to number its scopes by
  have hMade : (Analyzer.starting sink?).table.store ≠ [] := by
    cases sink? <;> exact List.cons_ne_nil _ _
  obtain ⟨calls, hCalls, hPrograms, hLike⟩ := analyzeAll_likeNew hMade ps
  refine ⟨calls, hCalls, hPrograms, hLike, fun done call later hSplit => ?_⟩
  obtain ⟨hRun, hHeld⟩ := analyzeAll_run hCalls hMade hSplit
  refine ⟨fun moment hMoment => ⟨hMoment.grows hRun, ?_⟩, passes_end hRun⟩
  have hReported : moment.sink.diagnostics = _ := moments_reported hMoment
  rw [hReported, hHeld]
  cases sink? <;> rfl

/-- The answer to a program, twice behind one another. -/
def twiceAnswered (p : Program) : Program :=
  match Analyzer.new.analyze p with
  | .ok (q, _) => ⟨q.decls ++ q.decls⟩
  | .error _ => ⟨[]⟩

/-- A program and then its own answer twice over, reported to a sink that holds an error already:
there are errors in both calls, and all are kept. -/
theorem chainSession_leaves_no_trace :
    ((Analyzer.starting (some ⟨[⟨.undeclared, none, none⟩]⟩)).analyzeAll
        [chainProgram, twiceAnswered chainProgram]).toOption.map
      (fun calls => calls.map fun call => (call.after.errors.length, call.after.sink.size)) =
        some [(2, 3), (7, 10)] ∧
    ∃ calls, (Analyzer.starting (some ⟨[⟨.undeclared, none, none⟩]⟩)).analyzeAll
        [chainProgram, twiceAnswered chainProgram] = .ok calls ∧
      calls.map Call.program = [chainProgram, twiceAnswered chainProgram] ∧
      (∀ call ∈ calls, LikeNew call.program call.answer call.after) ∧
      SinkHolds (some ⟨[⟨.undeclared, none, none⟩]⟩) calls :=
  ⟨by decide +kernel, sessions_leave_no_trace _ _⟩

end NameResolution
