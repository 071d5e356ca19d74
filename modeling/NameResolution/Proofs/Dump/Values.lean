import NameResolution.Proofs.Dump.Texts
import NameResolution.Proofs.Grammar.Lexing
import NameResolution.Proofs.Text.Decimal

/-!
# Values in dumps — the only value that a text is printed for

The first character of a printed value tells what kind of value it is. A number ends in front of the
first character that is no digit, a string at its closing quote, and a list or an object at the
bracket that closes it. So the text of a value is printed for no other one.

* `Reveals` — a text that shows what it was written for, and where it ends.
* `Kind`, `kindOf` — kinds of values, told by their first characters.
* `printLines_reveals` — lists of what can be told apart.
* `Value.print_reveals`, `Value.print_inj` — values are printed apart.
-/

namespace NameResolution.Dump

/-! ## Writing apart -/

/-- A text that does not make a number in front of it longer. -/
def Ends (rest : List Char) : Prop := ∀ c ∈ rest.head?, c.isDigit = false

/-- What `f` writes for `x` shows that it is `x`, and where the writing ends. -/
def Reveals {α : Type} (f : α → String) (x : α) : Prop :=
  ∀ y rest rest', Ends rest → Ends rest' → (f x).toList ++ rest = (f y).toList ++ rest' →
    x = y ∧ rest = rest'

variable {α : Type} {f : α → String} {x y : α} {rest rest' : List Char}

/-- Different values are printed differently. -/
theorem Reveals.eq (h : Reveals f x) (hSame : f x = f y) : x = y :=
  (h y [] [] nofun nofun (by rw [hSame])).1

/-- A number ends in front of what is no digit. -/
theorem ends_cons {c : Char} (h : c.isDigit = false) (rest : List Char) : Ends (c :: rest) := by
  intro d hd
  cases hd
  exact h

/-! ## Numbers -/

/-- A natural number and what follows it can be told from the text. -/
theorem toDigits_append_inj {n m : Nat} (hEnds : Ends rest) (hEnds' : Ends rest')
    (h : Nat.toDigits 10 n ++ rest = Nat.toDigits 10 m ++ rest') : n = m ∧ rest = rest' := by
  obtain ⟨hDigits, hRest⟩ := Grammar.takeWhile_append_stop (Text.toDigits_isDigit n) hEnds
  obtain ⟨hDigits', hRest'⟩ := Grammar.takeWhile_append_stop (Text.toDigits_isDigit m) hEnds'
  rw [h] at hDigits hRest
  have hSame : Nat.toDigits 10 n = Nat.toDigits 10 m := hDigits.symm.trans hDigits'
  refine ⟨?_, hRest.symm.trans hRest'⟩
  rw [← Text.decimalValue_toDigits n, hSame, Text.decimalValue_toDigits]

/-- A number starts with a digit or with a minus sign, which is no digit. -/
theorem toDigits_ne_minus {n : Nat} : Nat.toDigits 10 n ++ rest ≠ '-' :: rest' := by
  intro h
  cases hDigits : Nat.toDigits 10 n with
  | nil => exact Nat.toDigits_ne_nil hDigits
  | cons c digits =>
    have hDigit := Text.toDigits_isDigit n c (hDigits ▸ List.mem_cons_self)
    rw [hDigits] at h
    obtain rfl : c = '-' := List.head_eq_of_cons_eq h
    cases hDigit

/-- An integer can be told from its text, sign included. -/
theorem decimalText_reveals (n : Int) : Reveals Text.decimalText n := by
  intro m rest rest' hEnds hEnds' h
  cases n with
  | ofNat n =>
    cases m with
    | ofNat m =>
      simp only [Text.decimalText, String.toList_ofList] at h
      obtain ⟨rfl, hRest⟩ := toDigits_append_inj hEnds hEnds' h
      exact ⟨rfl, hRest⟩
    | negSucc m =>
      simp only [Text.decimalText, String.toList_ofList] at h
      exact absurd h toDigits_ne_minus
  | negSucc n =>
    cases m with
    | ofNat m =>
      simp only [Text.decimalText, String.toList_ofList] at h
      exact absurd h.symm toDigits_ne_minus
    | negSucc m =>
      simp only [Text.decimalText, String.toList_ofList] at h
      -- what stands behind the sign is the number without it, one more than `n`
      obtain ⟨hNumber, hRest⟩ := toDigits_append_inj hEnds hEnds' (List.tail_eq_of_cons_eq h)
      obtain rfl : n = m := by omega
      exact ⟨rfl, hRest⟩

/-! ## Lines -/

/-- The end of a line, and the spaces in front of the next one. -/
def lineBreak (depth : Nat) : List Char := '\n' :: List.replicate (2 * depth) ' '

/-- What stands behind an item: the other items, with a comma in front of each, and what closes
the list. -/
def moreLines (closing : List Char) (depth : Nat) : List String → List Char
  | [] => lineBreak depth ++ closing
  | item :: items =>
    ',' :: (lineBreak (depth + 1) ++ (item.toList ++ moreLines closing depth items))

/-- The text of a list that is not empty: its first item, and then further lines. -/
theorem printLines_cons (opening closing : String) (depth : Nat) (item : String)
    (items : List String) : (printLines opening closing depth (item :: items)).toList =
      opening.toList ++ (lineBreak (depth + 1) ++
        (item.toList ++ moreLines closing.toList depth items)) := by
  induction items generalizing opening item with
  | nil => simp [printLines, moreLines, lineBreak]
  | cons next items ih =>
    -- the first item and the comma behind it count as part of the opening
    have hFirst : printLines opening closing depth (item :: next :: items) =
        printLines (opening ++ "\n" ++ String.ofList (List.replicate (2 * (depth + 1)) ' ') ++
          item ++ ",") closing depth (next :: items) := by
      simp [printLines, String.intercalate_cons_cons, String.append_assoc]
    rw [hFirst, ih]
    simp [moreLines, lineBreak]

/-- Behind an item comes a comma or the end of the line, never a digit. -/
theorem moreLines_ends (closing : List Char) (depth : Nat) (items : List String)
    (rest : List Char) : Ends (moreLines closing depth items ++ rest) := by
  cases items with
  | nil => exact ends_cons (by decide) _
  | cons => exact ends_cons (by decide) _

/-- The items from the second one on are shown, if each of them is. -/
theorem moreLines_append_inj {closing : List Char} {depth : Nat} {xs ys : List α}
    (hShown : ∀ x ∈ xs, Reveals f x)
    (h : moreLines closing depth (xs.map f) ++ rest = moreLines closing depth (ys.map f) ++ rest') :
    xs = ys ∧ rest = rest' := by
  induction xs generalizing ys with
  | nil =>
    cases ys with
    | nil => exact ⟨rfl, List.append_cancel_left h⟩
    | cons y ys =>
      -- the end of a line is no comma
      exact absurd (List.head_eq_of_cons_eq h) (by decide)
  | cons x xs ih =>
    obtain ⟨hFirst, hOthers⟩ := List.forall_mem_cons.mp hShown
    cases ys with
    | nil => exact absurd (List.head_eq_of_cons_eq h) (by decide)
    | cons y ys =>
      simp only [List.map_cons, moreLines, List.cons_append, List.append_assoc, List.cons.injEq,
        true_and, List.append_cancel_left_eq] at h
      -- a comma or the end of the line stands behind the item
      obtain ⟨rfl, hBehind⟩ := hFirst y _ _ (moreLines_ends _ _ _ _) (moreLines_ends _ _ _ _) h
      obtain ⟨rfl, hRest⟩ := ih hOthers hBehind
      exact ⟨rfl, hRest⟩

/-- A list of items is shown, if each of them is. -/
theorem printLines_reveals (opening : String) {closing : String} {c : Char}
    (hClosing : closing.toList = [c]) (hLine : c ≠ '\n') (depth : Nat) {xs : List α}
    (hShown : ∀ x ∈ xs, Reveals f x) :
    Reveals (fun xs => printLines opening closing depth (xs.map f)) xs := by
  have hEmpty : (printLines opening closing depth []).toList = opening.toList ++ [c] := by
    rw [← hClosing, ← String.toList_append]
    rfl
  intro ys rest rest' _ _ h
  cases xs with
  | nil =>
    cases ys with
    | nil => exact ⟨rfl, List.append_cancel_left h⟩
    | cons y ys =>
      -- one list closes where the other one starts a line
      simp only [List.map_nil, List.map_cons, hEmpty, printLines_cons, List.append_assoc,
        List.append_cancel_left_eq] at h
      exact absurd (List.head_eq_of_cons_eq h) hLine
  | cons x xs =>
    obtain ⟨hFirst, hOthers⟩ := List.forall_mem_cons.mp hShown
    cases ys with
    | nil =>
      simp only [List.map_nil, List.map_cons, hEmpty, printLines_cons, List.append_assoc,
        List.append_cancel_left_eq] at h
      exact absurd (List.head_eq_of_cons_eq h).symm hLine
    | cons y ys =>
      simp only [List.map_cons, printLines_cons, List.append_assoc,
        List.append_cancel_left_eq] at h
      obtain ⟨rfl, hBehind⟩ := hFirst y _ _ (moreLines_ends _ _ _ _) (moreLines_ends _ _ _ _) h
      obtain ⟨rfl, hRest⟩ := moreLines_append_inj hOthers hBehind
      exact ⟨rfl, hRest⟩

/-! ## Kinds of values -/

/-- How the text of a value looks. -/
inductive Kind where
  | null
  | bool (b : Bool)
  | int
  | text
  | list
  | object
deriving DecidableEq

/-- What starts with the character. -/
def kindOf (c : Char) : Kind :=
  if c = 'n' then .null
  else if c = 't' then .bool true
  else if c = 'f' then .bool false
  else if c = '"' then .text
  else if c = '[' then .list
  else if c = '\x7b' then .object
  else .int

/-- The kind of a value, which its first character shows. -/
def Value.kind : Value → Kind
  | null => .null
  | bool b => .bool b
  | int _ => .int
  | text _ => .text
  | list _ => .list
  | object _ => .object

/-- A digit starts an integer. -/
theorem kindOf_digit {c : Char} (h : c.isDigit = true) : kindOf c = .int := by
  have hOther : ∀ d : Char, d.isDigit = false → c ≠ d := by
    rintro d hd rfl
    rw [h] at hd
    cases hd
  rw [kindOf, if_neg (hOther 'n' rfl), if_neg (hOther 't' rfl), if_neg (hOther 'f' rfl),
    if_neg (hOther '"' rfl), if_neg (hOther '[' rfl), if_neg (hOther '\x7b' rfl)]

/-- An integer starts with a digit or a sign. -/
theorem decimalText_kind (n : Int) :
    ∃ c text, (Text.decimalText n).toList = c :: text ∧ kindOf c = .int := by
  cases n with
  | ofNat n =>
    have hSome : Nat.toDigits 10 n ≠ [] := Nat.toDigits_ne_nil
    obtain ⟨c, digits, hDigits⟩ := List.exists_cons_of_ne_nil hSome
    have hDigit := Text.toDigits_isDigit n c (hDigits ▸ List.mem_cons_self)
    exact ⟨c, digits, by rw [Text.decimalText, String.toList_ofList, hDigits], kindOf_digit hDigit⟩
  | negSucc n => exact ⟨'-', _, String.toList_ofList, rfl⟩

/-- A list starts with its opening bracket, whether or not there are items. -/
theorem printLines_head {opening : String} {c : Char} (hOpening : opening.toList = [c])
    (closing : String) (depth : Nat) (items : List String) :
    ∃ text, (printLines opening closing depth items).toList = c :: text := by
  cases items with
  | nil => exact ⟨closing.toList, by simp [printLines, hOpening]⟩
  | cons item items => exact ⟨_, by rw [printLines_cons, hOpening]; rfl⟩

/-- The first character of a printed value tells its kind. -/
theorem Value.print_kind (v : Value) (depth : Nat) :
    ∃ c text, (v.print depth).toList = c :: text ∧ kindOf c = v.kind := by
  cases v with
  | null =>
    rw [Value.print]
    exact ⟨'n', "ull".toList, rfl, rfl⟩
  | bool b =>
    cases b with
    | true =>
      rw [Value.print]
      exact ⟨'t', "rue".toList, rfl, rfl⟩
    | false =>
      rw [Value.print]
      exact ⟨'f', "alse".toList, rfl, rfl⟩
  | int n =>
    rw [Value.print]
    exact decimalText_kind n
  | text s =>
    rw [Value.print]
    exact ⟨'"', _, printText_toList s, rfl⟩
  | list items =>
    rw [Value.print]
    have hOpening : "[".toList = ['['] := rfl
    obtain ⟨text, hText⟩ := printLines_head hOpening "]" depth (printItems (depth + 1) items)
    exact ⟨'[', text, hText, rfl⟩
  | object entries =>
    rw [Value.print]
    have hOpening : "\x7b".toList = ['\x7b'] := rfl
    obtain ⟨text, hText⟩ :=
      printLines_head hOpening "\x7d" depth (printEntries (depth + 1) entries)
    exact ⟨'\x7b', text, hText, rfl⟩

/-- Values that are printed alike, with whatever follows them, are of one kind. -/
theorem Value.kind_eq {v w : Value} {depth : Nat}
    (h : (v.print depth).toList ++ rest = (w.print depth).toList ++ rest') : v.kind = w.kind := by
  obtain ⟨c, text, hText, hKind⟩ := v.print_kind depth
  obtain ⟨c', text', hText', hKind'⟩ := w.print_kind depth
  rw [hText, hText'] at h
  obtain rfl : c = c' := List.head_eq_of_cons_eq h
  exact hKind.symm.trans hKind'

/-! ## Values -/

/-- An entry of an object as it is printed. -/
def printEntry (depth : Nat) (entry : String × Value) : String :=
  printText entry.1 ++ ": " ++ entry.2.print depth

theorem printItems_eq_map (depth : Nat) (items : List Value) :
    Value.printItems depth items = items.map (Value.print depth) := by
  induction items with
  | nil => rfl
  | cons v items ih => rw [Value.printItems, ih, List.map_cons]

theorem printEntries_eq_map (depth : Nat) (entries : List (String × Value)) :
    Value.printEntries depth entries = entries.map (printEntry depth) := by
  induction entries with
  | nil => rfl
  | cons entry entries ih =>
    obtain ⟨key, v⟩ := entry
    rw [Value.printEntries, ih, List.map_cons]
    rfl

/-- An entry can be told from its text, if its value can be. -/
theorem printEntry_reveals {key : String} {v : Value} {depth : Nat}
    (h : Reveals (Value.print depth) v) : Reveals (printEntry depth) (key, v) := by
  rintro ⟨key', w⟩ rest rest' hEnds hEnds' hText
  simp only [printEntry, String.toList_append, List.append_assoc] at hText
  obtain ⟨rfl, hBehind⟩ := printText_append_inj hText
  obtain ⟨rfl, hRest⟩ := h w rest rest' hEnds hEnds' (List.append_cancel_left hBehind)
  exact ⟨rfl, hRest⟩

mutual

/-- A value is shown by its text. -/
theorem Value.print_reveals : (v : Value) → (depth : Nat) → Reveals (Value.print depth) v
  | .null, depth => by
    intro w rest rest' _ _ h
    -- the kinds are compared first, so that only values of the same kind are left
    have hKind := kind_eq h
    cases w with
    | null => exact ⟨rfl, List.append_cancel_left h⟩
    | bool | int | text | list | object => cases hKind
  | .bool b, depth => by
    intro w rest rest' _ _ h
    have hKind := kind_eq h
    cases w with
    | bool b' =>
      cases hKind
      exact ⟨rfl, List.append_cancel_left h⟩
    | null | int | text | list | object => cases hKind
  | .int n, depth => by
    intro w rest rest' hEnds hEnds' h
    have hKind := kind_eq h
    cases w with
    | int m =>
      simp only [Value.print] at h
      obtain ⟨rfl, hRest⟩ := decimalText_reveals n m rest rest' hEnds hEnds' h
      exact ⟨rfl, hRest⟩
    | null | bool | text | list | object => cases hKind
  | .text s, depth => by
    intro w rest rest' _ _ h
    have hKind := kind_eq h
    cases w with
    | text t =>
      simp only [Value.print] at h
      obtain ⟨rfl, hRest⟩ := printText_append_inj h
      exact ⟨rfl, hRest⟩
    | null | bool | int | list | object => cases hKind
  | .list items, depth => by
    intro w rest rest' hEnds hEnds' h
    have hKind := kind_eq h
    cases w with
    | list items' =>
      simp only [Value.print, printItems_eq_map] at h
      have hClosing : "]".toList = [']'] := rfl
      have hItems := printLines_reveals "[" hClosing (by decide) depth
        -- the items are told from their texts by induction; the brackets and commas tell where each
        -- one ends
        (Value.items_reveal items (depth + 1))
      obtain ⟨rfl, hRest⟩ := hItems items' rest rest' hEnds hEnds' h
      exact ⟨rfl, hRest⟩
    | null | bool | int | text | object => cases hKind
  | .object entries, depth => by
    intro w rest rest' hEnds hEnds' h
    have hKind := kind_eq h
    cases w with
    | object entries' =>
      simp only [Value.print, printEntries_eq_map] at h
      have hClosing : "\x7d".toList = ['\x7d'] := rfl
      have hEntries := printLines_reveals "\x7b" hClosing (by decide) depth
        (Value.entries_reveal entries (depth + 1))
      obtain ⟨rfl, hRest⟩ := hEntries entries' rest rest' hEnds hEnds' h
      exact ⟨rfl, hRest⟩
    | null | bool | int | text | list => cases hKind

theorem Value.items_reveal :
    (items : List Value) → (depth : Nat) → ∀ v ∈ items, Reveals (Value.print depth) v
  | [], _ => nofun
  | v :: items, depth =>
    List.forall_mem_cons.mpr ⟨Value.print_reveals v depth, Value.items_reveal items depth⟩

theorem Value.entries_reveal :
    (entries : List (String × Value)) → (depth : Nat) →
      ∀ entry ∈ entries, Reveals (printEntry depth) entry
  | [], _ => nofun
  | (_, v) :: entries, depth =>
    List.forall_mem_cons.mpr
      ⟨printEntry_reveals (Value.print_reveals v depth), Value.entries_reveal entries depth⟩

end

/-- Different values are printed as different texts. -/
theorem Value.print_inj {v w : Value} {depth : Nat} (h : v.print depth = w.print depth) : v = w :=
  (v.print_reveals depth).eq h

end NameResolution.Dump
