import NameResolution.Grammar.Expression
import NameResolution.Proofs.Grammar.Folding
import NameResolution.Proofs.Grammar.Run

/-!
# Captures — what repetitions hand over, and the lists made of it

A repetition hands over what its rounds have handed over, nested as the rounds are, with a text for
each separator and operator and a gap for what was absent. The lists of a tree are the nodes of
such captures, and its operations are folded over them. The parser reads the lists and the pairs
straight away: both ways come to the same.

* `many_map` — a repetition whose rounds are changed one by one.
* `captureMany_nodes`, `captureSepBy_nodes` — the lists that `many` and `sepBy` read.
* `captureOperations_fold`, `leftAssociative_eq_fold` — the operations that the parser folds.
-/

namespace NameResolution.Grammar

variable {α β : Type}

namespace Capture

/-! ## Nodes -/

@[simp] theorem nodes_absent : (absent : Capture α).nodes = [] := rfl

@[simp] theorem nodes_text (s : String) : (text s : Capture α).nodes = [] := rfl

@[simp] theorem nodes_leaf (x : α) : (leaf x).nodes = [leaf x] := rfl

/-- The nodes of a list are those of its items, in their order. -/
@[simp] theorem nodes_list (cs : List (Capture α)) : (list cs).nodes = cs.flatMap nodes := by
  induction cs with
  | nil => rfl
  | cons c cs ih =>
    simp only [nodes, flatten, flattenAll, List.filter_append, List.flatMap_cons] at ih ⊢
    rw [ih]

/-- A list of nodes has just these nodes, in order. -/
theorem nodes_leaves (items : List α) : (list (items.map leaf)).nodes = items.map leaf := by
  induction items with
  | nil => rfl
  | cons item items ih => simpa using ih

/-- What an item behind a separator or an operator hands over. -/
def pair (p : String × α) : Capture α :=
  list [text p.1, leaf p.2]

/-- The separators are left out. -/
theorem nodes_pairs (pairs : List (String × α)) :
    (list (pairs.map pair)).nodes = (pairs.map Prod.snd).map leaf := by
  induction pairs with
  | nil => rfl
  | cons p pairs ih => simpa [pair] using ih

/-- A node is neither absent nor a list, and it is no text. -/
theorem nodes_isPart {c part : Capture α} (h : part ∈ c.nodes) :
    part.IsPart ∧ part.isText = false := by
  obtain ⟨hPart, hText⟩ := List.mem_filter.mp h
  exact ⟨flatten_isPart c part hPart, by simpa using hText⟩

end Capture

namespace Parser

open Capture

/-! ## Repetitions -/

/-- Doing something with each value of a repetition is doing it with the list of them. -/
theorem manyUpTo_map (f : α → β) (p : Parser α) (n : Nat) :
    manyUpTo (f <$> p) n = List.map f <$> manyUpTo p n := by
  induction n with
  | zero => rfl
  | succ n ih =>
    funext ctx cs
    cases h : p ctx cs with
    | matched a rest =>
      -- the first round, and then the others
      have hRounds : manyUpTo p (n + 1) ctx cs = ((a :: ·) <$> manyUpTo p n) ctx rest := by
        rw [manyUpTo_succ, h]
      have hMapped : (List.map f <$> manyUpTo p (n + 1)) ctx cs =
          (List.map f <$> (a :: ·) <$> manyUpTo p n) ctx rest := by
        show andThen _ _ ctx cs = andThen _ _ ctx rest
        rw [andThen, andThen, hRounds]
      rw [hMapped, manyUpTo_succ, map_of_matched h, ih]
      simp only [Functor.map_map, List.map_cons]
    | rejected =>
      have hNone : manyUpTo p (n + 1) ctx cs = .matched [] cs := by
        rw [manyUpTo_succ, h]
      rw [map_of_matched hNone, manyUpTo_succ, map_of_rejected h]
      rfl
    | tooLong digits =>
      have hEnds : manyUpTo p (n + 1) ctx cs = .tooLong digits := by
        rw [manyUpTo_succ, h]
      rw [map_of_tooLong hEnds, manyUpTo_succ, map_of_tooLong h]

/-- It is the same to change each item when it is read and to change all of them afterwards. -/
theorem many_map (f : α → β) (p : Parser α) : many (f <$> p) = List.map f <$> many p := by
  funext ctx cs
  rw [many, manyUpTo_map]
  rfl

/-! ## Captures -/

/-- A repetition, with what it hands over. -/
def captureMany (p : Parser α) : Parser (Capture α) :=
  list <$> many (leaf <$> p)

/-- The nodes of a repetition are the items that it reads. -/
theorem captureMany_nodes (p : Parser α) : nodes <$> captureMany p = List.map leaf <$> many p := by
  rw [captureMany, many_map, Functor.map_map, Functor.map_map]
  simp only [nodes_leaves]

/-- Reads an item behind a separator or an operator, and keeps the text of that. -/
def behindText (before : Parser String) (p : Parser α) : Parser (String × α) := do
  let s ← before
  let item ← p
  pure (s, item)

/-- A repetition with separators, with what it hands over. The first item may be absent. -/
def captureSepBy (p : Parser α) (separator : Parser String) : Parser (Capture α) := do
  let first? ← optional p
  let others ← many (pair <$> behindText separator p)
  pure (list [(first?.map leaf).getD absent, list others])

/-- The nodes of a repetition with separators are the items that it reads. -/
theorem captureSepBy_nodes (p : Parser α) (separator : Parser String) :
    nodes <$> captureSepBy p separator = List.map leaf <$> sepBy p separator := by
  -- the separator is captured with each further item, and dropped again by the helper
  have hOthers : (do let _ ← separator; p) = Prod.snd <$> behindText separator p := by
    simp [behindText]
  rw [sepBy, hOthers, captureSepBy]
  simp only [many_map, map_bind, bind_map_left, map_pure]
  congr 1
  funext first?
  congr 1
  funext others
  congr 1
  -- the texts between the items go, whether or not there is a first item
  have hNodes : (list (others.map pair)).nodes = _ := nodes_pairs others
  cases first? with
  | none => simpa using hNodes
  | some first => simpa using hNodes

/-- Operators and their right operands, with what they hand over. -/
def captureOperations (op : Parser String) (operand : Parser α) : Parser (Capture α) :=
  list <$> many (pair <$> behindText op operand)

/-- The captures of operators and operands fold like the pairs that are read. -/
theorem captureOperations_fold {combine : Capture α → β → Capture α → β}
    {binary : String → β → α → β}
    (hCombine : ∀ op left right, combine (text op) left (leaf right) = binary op left right)
    (first : β) (op : Parser String) (operand : Parser α) :
    (fun rest : Capture α => rest.fold combine first) <$> captureOperations op operand =
      foldPairs binary first <$> many (behindText op operand) := by
  rw [captureOperations, many_map, Functor.map_map, Functor.map_map]
  congr 1
  funext pairs
  exact fold_operations hCombine first pairs

/-- What the parser reads behind the first operand are operators and operands of this kind. -/
theorem leftAssociative_eq_fold {combine : Capture Expr → Expr → Capture Expr → Expr}
    (hCombine : ∀ op left right, combine (text op) left (leaf right) = .binary op left right)
    (op : Parser String) (operand : Parser Expr) :
    leftAssociative op operand = (do
      let first ← operand
      let rest ← captureOperations op operand
      pure (rest.fold combine first)) := by
  rw [leftAssociative]
  congr 1
  funext first
  -- both start with the first operand; what follows it is the fold over the captured pairs
  exact (captureOperations_fold hCombine first op operand).symm

end Parser

end NameResolution.Grammar
