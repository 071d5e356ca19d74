import Mathlib.Algebra.Group.Nat.Even
import Mathlib.Data.List.Induction
import NameResolution.Grammar.Capture

/-!
# Folding — operators and operands, whatever lists they come in

What a repetition hands over is nested, and has gaps. Only the sequence of its parts counts: it is
cut into operators and operands two by two, and they are put around the first operand from the
inside out. So they can be read again off the left spine of what the folding makes, and a sequence
can be folded piece by piece, if no piece ends behind an operator.

* `IsPaired`, `isPaired_iff` — a list cut into pairs, with one item more at most.
* `spine`, `spine_foldPairs` — the operations on a left spine, and those that folding puts there.
* `Capture.flatten_flatten` — a flat capture is flattened to itself.
* `Capture.fold_operations` — what the parser folds is a capture of operators and operands.
* `Capture.fold_keeps_sequence` — the laws of folding.
-/

namespace NameResolution.Grammar

variable {α β ω : Type}

/-! ## Pairs -/

/-- The list is made of the pairs, one behind the other, and of one item more at most. -/
def IsPaired (xs : List α) (pairs : List (α × α)) : Prop :=
  ∃ unpaired, unpaired.length ≤ 1 ∧ xs = (pairs.flatMap fun (a, b) => [a, b]) ++ unpaired

/-- One item or none makes no pair. -/
theorem pairUp_of_short {xs : List α} (h : xs.length ≤ 1) : pairUp xs = [] := by
  match xs, h with
  | [], _ => rfl
  | [_], _ => rfl

/-- What is paired up is the list of pairs in order, with at most one item left. -/
theorem pairUp_isPaired (xs : List α) : IsPaired xs (pairUp xs) := by
  fun_induction pairUp xs with
  | case1 a b rest ih =>
    obtain ⟨unpaired, hLength, hRest⟩ := ih
    refine ⟨unpaired, hLength, ?_⟩
    simp [← hRest]
  | case2 xs hShort =>
    -- no two items are left
    refine ⟨xs, ?_, rfl⟩
    match xs with
    | [] => simp
    | [_] => simp
    | a :: b :: rest => exact absurd rfl (hShort a b rest)

/-- There is one way to cut a list into pairs. -/
theorem isPaired_iff {xs : List α} {pairs : List (α × α)} :
    IsPaired xs pairs ↔ pairs = pairUp xs := by
  constructor
  · rintro ⟨unpaired, hLength, rfl⟩
    induction pairs with
    | nil => exact (pairUp_of_short hLength).symm
    | cons pair pairs ih =>
      simp only [List.flatMap_cons, List.cons_append, List.nil_append, pairUp]
      rw [← ih]
  · rintro rfl
    exact pairUp_isPaired xs

/-- The pairs of a list whose items all have a partner stay the same in front of more items. -/
theorem pairUp_append {xs : List α} (hEven : Even xs.length) (ys : List α) :
    pairUp (xs ++ ys) = pairUp xs ++ pairUp ys := by
  fun_induction pairUp xs with
  | case1 a b rest ih =>
    -- two items less leave an even number
    have hRest : Even rest.length := by
      simp only [List.length_cons, Nat.even_add_one, not_not] at hEven
      exact hEven
    simp only [List.cons_append, pairUp, ih hRest]
  | case2 xs hShort =>
    match xs with
    | [] => rfl
    | [_] => simp at hEven
    | a :: b :: rest => exact absurd rfl (hShort a b rest)

/-! ## Left spines -/

/-- The operations on the left spine of a value, from the inside out, if there are `n` of them, and
the value that they were put around. `split` takes the outermost operation off. -/
def spine (split : β → Option (ω × β × α)) : Nat → β → Option (β × List (ω × α))
  | 0, value => some (value, [])
  | n + 1, value => do
    let (op, left, right) ← split value
    let (first, pairs) ← spine split n left
    some (first, pairs ++ [(op, right)])

/-- Folding puts its operations on the left spine, and nothing else. -/
theorem spine_foldPairs {combine : ω → β → α → β} {split : β → Option (ω × β × α)}
    (hSplit : ∀ op left right, split (combine op left right) = some (op, left, right)) (first : β)
    (pairs : List (ω × α)) :
    spine split pairs.length (foldPairs combine first pairs) = some (first, pairs) := by
  induction pairs using List.reverseRecOn with
  | nil => rfl
  | append_singleton pairs pair ih =>
    -- the last operation is the outermost one
    have hLast : foldPairs combine first (pairs ++ [pair]) =
        combine pair.1 (foldPairs combine first pairs) pair.2 := by
      simp [foldPairs]
    rw [hLast, List.length_append, List.length_singleton, spine, hSplit]
    simp [ih]

namespace Capture

/-! ## Flat captures -/

/-- The capture is one part: it is not absent, and no list. -/
def IsPart : Capture α → Prop
  | absent | list _ => False
  | text _ | leaf _ | record _ => True

mutual

/-- A flattened capture has texts and nodes only. -/
theorem flatten_isPart : (c : Capture α) → ∀ part ∈ c.flatten, part.IsPart
  | absent => by simp [flatten]
  | list items => by
    rw [flatten]
    exact flattenAll_isPart items
  | text _ | leaf _ | record _ => by simp [flatten, IsPart]

theorem flattenAll_isPart : (cs : List (Capture α)) → ∀ part ∈ flattenAll cs, part.IsPart
  | [] => by simp [flattenAll]
  | c :: cs => by
    rw [flattenAll]
    exact List.forall_mem_append.mpr ⟨flatten_isPart c, flattenAll_isPart cs⟩

end

theorem flattenAll_append (cs ds : List (Capture α)) :
    flattenAll (cs ++ ds) = flattenAll cs ++ flattenAll ds := by
  induction cs with
  | nil => rfl
  | cons c cs ih => simp [flattenAll, ih]

/-- Flattening leaves texts and nodes alone. -/
theorem flattenAll_of_parts {parts : List (Capture α)} (h : ∀ part ∈ parts, part.IsPart) :
    flattenAll parts = parts := by
  induction parts with
  | nil => rfl
  | cons part parts ih =>
    obtain ⟨hPart, hParts⟩ := List.forall_mem_cons.mp h
    have hFlat : part.flatten = [part] := by
      cases part with
      | absent | list => exact hPart.elim
      | text | leaf | record => rfl
    rw [flattenAll, hFlat, ih hParts, List.singleton_append]

/-- A flat capture is flattened to itself. -/
theorem flatten_flatten (c : Capture α) : (list c.flatten).flatten = c.flatten := by
  rw [flatten]
  exact flattenAll_of_parts (flatten_isPart c)

/-- Two captures in a list. -/
theorem flatten_pair (c d : Capture α) : (list [c, d]).flatten = c.flatten ++ d.flatten := by
  simp [flatten, flattenAll]

theorem flatten_list_append (cs ds : List (Capture α)) :
    (list (cs ++ ds)).flatten = (list cs).flatten ++ (list ds).flatten := by
  simp only [flatten, flattenAll_append]

/-! ## Folds -/

/-- A sequence can be folded piece by piece, if each operator of a piece has its operand. -/
theorem fold_of_append (combine : Capture α → β → Capture α → β) (first : β)
    {rest more whole : Capture α} (hWhole : whole.flatten = rest.flatten ++ more.flatten)
    (hEven : Even rest.flatten.length) :
    whole.fold combine first = more.fold combine (rest.fold combine first) := by
  rw [fold, fold, fold, hWhole, pairUp_append hEven, foldPairs, List.foldl_append]
  rfl

/-- What the repetition of an operator and an operand hands over. -/
def operations (pairs : List (String × α)) : Capture α :=
  list (pairs.map fun (op, operand) => list [text op, leaf operand])

/-- Operators and operands that have been read as pairs fold like the capture of them. -/
theorem fold_operations {combine : Capture α → β → Capture α → β} {binary : String → β → α → β}
    (hCombine : ∀ op left right, combine (text op) left (leaf right) = binary op left right)
    (first : β) (pairs : List (String × α)) :
    (operations pairs).fold combine first = foldPairs binary first pairs := by
  induction pairs generalizing first with
  | nil => rfl
  | cons pair pairs ih =>
    have hWhole : (operations (pair :: pairs)).flatten =
        (list [text pair.1, leaf pair.2]).flatten ++ (operations pairs).flatten := by
      simp [operations, flatten, flattenAll]
    have hEven : Even (list [text pair.1, leaf pair.2]).flatten.length := ⟨1, rfl⟩
    have hPair : (list [text pair.1, leaf pair.2]).fold combine first =
        binary pair.1 first pair.2 := hCombine pair.1 first pair.2
    -- the first pair is a piece of its own
    rw [fold_of_append combine first hWhole hEven, hPair, ih]
    rfl

/-- **Folding.** Let `split` take apart what `combine` puts together. Folding depends on the
sequence of the parts alone, as if they had come in one flat list. It makes the pairs of that
sequence the operations on the left spine, around the first value, and leaves out one last part
without a partner at most. And a sequence of pairs in front of any other parts is folded first. -/
theorem fold_keeps_sequence {combine : Capture α → β → Capture α → β}
    {split : β → Option (Capture α × β × Capture α)}
    (hSplit : ∀ op left right, split (combine op left right) = some (op, left, right)) (first : β)
    (rest : Capture α) :
    (∀ other : Capture α, other.flatten = rest.flatten →
      other.fold combine first = rest.fold combine first) ∧
    (list rest.flatten).fold combine first = rest.fold combine first ∧
    (∃ pairs, IsPaired rest.flatten pairs ∧
      spine split pairs.length (rest.fold combine first) = some (first, pairs)) ∧
    (Even rest.flatten.length → ∀ more : Capture α,
      (list [rest, more]).fold combine first = more.fold combine (rest.fold combine first) ∧
      ∀ items items', rest = list items → more = list items' →
        (list (items ++ items')).fold combine first =
          more.fold combine (rest.fold combine first)) := by
  have hSequence : ∀ other : Capture α, other.flatten = rest.flatten →
      other.fold combine first = rest.fold combine first := by
    -- the fold looks at the flattened capture only
    intro other hOther
    rw [fold, fold, hOther]
  refine ⟨hSequence, hSequence _ (flatten_flatten rest), ?_, ?_⟩
  · exact ⟨pairUp rest.flatten, pairUp_isPaired _, spine_foldPairs hSplit first _⟩
  · intro hEven more
    -- an even number of parts in front: the pairs of what follows are not shifted
    refine ⟨fold_of_append combine first (flatten_pair rest more) hEven, ?_⟩
    rintro items items' rfl rfl
    exact fold_of_append combine first (flatten_list_append items items') hEven

/-- An operation as a capture with named parts. -/
def operation (op left right : Capture α) : Capture α :=
  record [("op", op), ("left", left), ("right", right)]

/-- The parts of an operation. -/
def operation? : Capture α → Option (Capture α × Capture α × Capture α)
  | record [("op", op), ("left", left), ("right", right)] => some (op, left, right)
  | _ => none

/-- Two operations, nested in different ways, with gaps and an operator too many. -/
def raggedOperations : Capture Nat :=
  list [list [absent, list [text "-"]], leaf 1, absent, list [list [list []], text "*"],
    list [list [leaf 2, absent]], text "-"]

/-- Operations that are nested in an uneven way. -/
theorem raggedOperations_folded :
    (∀ op left right : Capture Nat, operation? (operation op left right) = some (op, left, right)) ∧
      spine operation? 2 (raggedOperations.fold operation (leaf 0)) =
        some (leaf 0, [(text "-", leaf 1), (text "*", leaf 2)]) := by
  have hSplit : ∀ op left right : Capture Nat,
      operation? (operation op left right) = some (op, left, right) := fun _ _ _ => rfl
  obtain ⟨-, -, ⟨pairs, hPaired, hSpine⟩, -⟩ :=
    fold_keeps_sequence hSplit (leaf 0) raggedOperations
  obtain rfl := isPaired_iff.mp hPaired
  exact ⟨hSplit, hSpine⟩

end Capture

end NameResolution.Grammar
