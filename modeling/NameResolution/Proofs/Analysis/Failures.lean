import NameResolution.Proofs.Analysis.Walk

/-!
# Failures — every one is diagnosed once, and none leads to another

After an analysis the tree itself shows what went wrong: a declared name without a symbol, or a use
that is undefined although nothing left of it is. The errors are exactly as many, and they stand in
the order of these places.
-/

namespace NameResolution

/-! ## Counting over sites -/

/-- A spot fails once: as a declaration without a symbol, or as a use with a break. -/
theorem Spot.failed_count (s : Spot)
    (h : s.breaks.length = if s.declared = [] ∧ s.failed = true then 1 else 0) :
    (if s.failed = true then 1 else 0) = s.declared.countP Ident.isUnbound + s.breaks.length := by
  rw [h]
  cases s with
  | declaration id typeNames =>
    cases hUnbound : id.isUnbound <;> simp [Spot.failed, Spot.declared, hUnbound]
  | location loc => simp [Spot.declared]
  | callee id => simp [Spot.declared]

theorem length_filter_failed {sites : List Site}
    (h : ∀ s ∈ sites, s.spot.breaks.length =
      if s.spot.declared = [] ∧ s.spot.failed = true then 1 else 0) :
    (sites.filter fun s => s.spot.failed).length =
      (sites.flatMap fun s => s.spot.declared).countP Ident.isUnbound +
        (sites.flatMap fun s => s.spot.breaks).length := by
  induction sites with
  | nil => rfl
  | cons s sites ih =>
    have hHead := s.spot.failed_count (h s List.mem_cons_self)
    have hRest := ih fun r hr => h r (List.mem_cons_of_mem s hr)
    rw [List.flatMap_cons, List.flatMap_cons, List.countP_append, List.length_append,
      List.filter_cons]
    -- a site fails by an unbound name or by a break, and by at most one of them
    split at hHead
    · rename_i hFailed
      rw [if_pos hFailed, List.length_cons, hRest]
      omega
    · rename_i hFailed
      rw [if_neg hFailed, hRest]
      omega

/-- A location has a break as soon as one of its names is undefined. -/
theorem Loc.breaks_eq_nil (l : Loc) :
    l.breaks = [] ↔ ∀ id ∈ l.idents, id.isUndefined = false := by
  induction l with
  | var id => simp [Loc.breaks, Loc.idents]
  | field left id ih =>
    have hLast : left.last ∈ left.idents := by
      cases left <;> simp [Loc.last, Loc.idents]
    rw [Loc.breaks, List.append_eq_nil_iff, ih]
    simp only [Loc.idents, List.mem_append, List.mem_singleton]
    constructor
    · rintro ⟨hLeft, hHere⟩ id' (h | rfl)
      · exact hLeft id' h
      -- the last name of the left side is defined, so only the field itself can break
      · simpa [hLeft _ hLast] using hHere
    · intro h
      refine ⟨fun id' h' => h id' (.inl h'), ?_⟩
      rw [h id (.inr rfl)]
      rfl

/-- A use without breaks has no undefined name. -/
theorem Spot.breaks_eq_nil (s : Spot) :
    s.breaks = [] ↔ ∀ id ∈ s.used, id.isUndefined = false := by
  cases s with
  | declaration id typeNames => simp [Spot.breaks, Spot.used]
  | location loc => exact loc.breaks_eq_nil
  | callee id => simp [Spot.breaks, Spot.used]

/-- **No cascades.** An analysis of a fresh program does not fail. It reports as many errors as
there are declared names without a symbol and breaks of uses; the sites that failed and the errors
belong together one by one, in order, each error at a name of its site. So there are no errors
exactly if every declared name carries a symbol and no use is undefined. A location, however many
fields are accessed in it, breaks at most once, and it does exactly if its last name is
undefined. -/
theorem failures_are_diagnosed_once (a : Analyzer) {p : Program} (hFresh : p.Fresh) :
    ∃ q b, a.analyze p = .ok (q, b) ∧ q.bare = p.bare ∧
      b.errors.length = q.declaredNames.countP Ident.isUnbound + q.breaks.length ∧
      List.Forall₂ Site.Reports (q.sites.filter fun s => s.spot.failed) b.errors ∧
      (b.hasErrors = false ↔
        (∀ id ∈ q.declaredNames, id.isUnbound = false) ∧
          ∀ id ∈ q.usedNames, id.isUndefined = false) ∧
      ∀ s ∈ q.sites, ∀ l, s.spot = .location l →
        l.breaks.length = if l.last.isUndefined = true then 1 else 0 := by
  obtain ⟨q, b, hAnalyze, hBare, hSettled⟩ := analyze_settles a hFresh
  -- one error for each site that failed, and each of those fails in one way
  have hLength : b.errors.length = q.declaredNames.countP Ident.isUnbound + q.breaks.length :=
    hSettled.reported.length_eq.symm.trans (length_filter_failed hSettled.breaks)
  refine ⟨q, b, hAnalyze, hBare, hLength, hSettled.reported, ?_, ?_⟩
  -- no error means that both counts are zero
  · have hNone : b.hasErrors = false ↔ b.errors.length = 0 := by
      simp [Analyzer.hasErrors]
    have hUnbound : q.declaredNames.countP Ident.isUnbound = 0 ↔
        ∀ id ∈ q.declaredNames, id.isUnbound = false := by
      simp [List.countP_eq_zero]
    have hBreaks : q.breaks.length = 0 ↔ ∀ id ∈ q.usedNames, id.isUndefined = false := by
      rw [List.length_eq_zero_iff, Program.breaks, List.flatMap_eq_nil_iff]
      simp only [Spot.breaks_eq_nil, Program.usedNames, List.mem_flatMap]
      exact ⟨fun h id ⟨s, hs, hid⟩ => h s hs id hid, fun h s hs id hid => h id ⟨s, hs, hid⟩⟩
    rw [hNone, hLength, Nat.add_eq_zero_iff, hUnbound, hBreaks]
  · intro s hs l hl
    have hBreaks := hSettled.breaks s hs
    rw [hl] at hBreaks
    simpa [Spot.breaks, Spot.declared, Spot.failed] using hBreaks

/-- `struct S [ integer a. integer a. ] void v. void f[] [ struct S s. s:b:c = 1. g(). ]`: a
repeated field, a void variable, a chain that breaks at its first field, and an undeclared
function. -/
def failingProgram : Program :=
  ⟨[.struct ⟨⟨⟨1, 8⟩, "S", none⟩,
      [⟨.integer, ⟨⟨1, 20⟩, "a", none⟩, true⟩, ⟨.integer, ⟨⟨1, 31⟩, "a", none⟩, true⟩]⟩,
    .var ⟨.void, ⟨⟨2, 6⟩, "v", none⟩, false⟩,
    .func
      { result := .void
        id := ⟨⟨3, 6⟩, "f", none⟩
        body := ⟨[⟨.struct ⟨⟨4, 8⟩, "S", none⟩, ⟨⟨4, 10⟩, "s", none⟩, false⟩],
          [.assign
              (.field (.field (.var ⟨⟨5, 1⟩, "s", none⟩) ⟨⟨5, 3⟩, "b", none⟩) ⟨⟨5, 5⟩, "c", none⟩)
              (.intLit ⟨5, 9⟩ 1),
            .call ⟨⟨6, 1⟩, "g", none⟩ []]⟩ }]⟩

/-- The hypothesis can be met by a program that goes wrong in every way. -/
theorem failingProgram_failures_diagnosed :
    failingProgram.Fresh ∧
    ∃ q b, Analyzer.new.analyze failingProgram = .ok (q, b) ∧ q.bare = failingProgram.bare ∧
      b.errors.length = q.declaredNames.countP Ident.isUnbound + q.breaks.length ∧
      List.Forall₂ Site.Reports (q.sites.filter fun s => s.spot.failed) b.errors ∧
      (b.hasErrors = false ↔
        (∀ id ∈ q.declaredNames, id.isUnbound = false) ∧
          ∀ id ∈ q.usedNames, id.isUndefined = false) ∧
      ∀ s ∈ q.sites, ∀ l, s.spot = .location l →
        l.breaks.length = if l.last.isUndefined = true then 1 else 0 := by
  -- freshness asks about finitely many names of a given program, so it can be computed
  have hFresh : failingProgram.Fresh := by
    unfold Program.Fresh
    decide
  exact ⟨hFresh, failures_are_diagnosed_once Analyzer.new hFresh⟩

end NameResolution
