import NameResolution.Proofs.Text.Lines
import NameResolution.Text.Newline

/-!
# Line ends — a carriage return and a line feed in the place of a line feed

A text that ends its lines with a carriage return and a line feed has the same lines as the one
that ends them with the line feed alone. An offset behind as much of the one as of the other text
has the same position in both.

* `Paired`, `joinPairs` — no carriage return stands alone; a pair becomes a line feed.
* `SameLines`, `SamePlace` — two such texts, and two endings that begin at the same place.
* `SamePlace.locate` — the same place has the same position.
-/

namespace NameResolution.Text

variable {cs cs' front front' mid mid' rest rest' : List Char}

/-! ## Pairs -/

/-- Right behind every carriage return of the text is a line feed. -/
def Paired (cs : List Char) : Prop :=
  ∀ i < cs.length, cs[i]? = some '\r' → cs[i + 1]? = some '\n'

instance (cs : List Char) : Decidable (Paired cs) :=
  inferInstanceAs (Decidable (∀ i < cs.length, cs[i]? = some '\r' → cs[i + 1]? = some '\n'))

/-- The text with a line feed in the place of every carriage return with a line feed behind it. -/
def joinPairs : List Char → List Char
  | [] => []
  | '\r' :: '\n' :: rest => '\n' :: joinPairs rest
  | c :: rest => c :: joinPairs rest

/-- Behind its first character a text with paired carriage returns is still one. -/
theorem Paired.tail {c : Char} (h : Paired (c :: cs)) : Paired cs :=
  fun i hInside hReturn => h (i + 1) (Nat.succ_lt_succ hInside) hReturn

/-! ## The same lines -/

/-- The texts are the same, but where the second one has a line feed the first one may have a
carriage return in front of it. -/
inductive SameLines : List Char → List Char → Prop where
  | nil : SameLines [] []
  | pair {cs cs' : List Char} (hRest : SameLines cs cs') :
    SameLines ('\r' :: '\n' :: cs) ('\n' :: cs')
  | char {c : Char} {cs cs' : List Char} (hChar : c ≠ '\r') (hRest : SameLines cs cs') :
    SameLines (c :: cs) (c :: cs')

/-- Joining the pairs keeps the lines. -/
theorem Paired.sameLines (h : Paired cs) : SameLines cs (joinPairs cs) := by
  fun_induction joinPairs cs with
  | case1 => exact .nil
  | case2 rest ih => exact .pair (ih h.tail.tail)
  | case3 c rest hPair ih =>
    refine .char ?_ (ih h.tail)
    rintro rfl
    -- a carriage return has a line feed behind it, so this is the case of a pair
    have hFeed : rest[0]? = some '\n' := h 0 (Nat.succ_pos _) rfl
    rw [← List.head?_eq_getElem?] at hFeed
    obtain ⟨below, rfl⟩ := List.head?_eq_some_iff.mp hFeed
    exact hPair below rfl rfl

/-- Where no carriage return stands alone, the convention for files joins the pairs. -/
theorem SameLines.normalizeNewlines (h : SameLines cs cs') : normalizeNewlines cs = cs' := by
  induction h with
  | nil => rfl
  | pair _ ih => rw [Text.normalizeNewlines, ih]
  | char hChar _ ih =>
    rw [Text.normalizeNewlines, ih]
    · exact fun _ hReturn _ => hChar hReturn
    · exact hChar

/-- A text without carriage returns has the same lines as itself. -/
theorem SameLines.refl (h : '\r' ∉ cs) : SameLines cs cs := by
  induction cs with
  | nil => exact .nil
  | cons c cs ih =>
    rw [List.mem_cons, not_or] at h
    exact .char (Ne.symm h.1) (ih h.2)

theorem SameLines.append (h : SameLines cs cs') (hRest : SameLines rest rest') :
    SameLines (cs ++ rest) (cs' ++ rest') := by
  induction h with
  | nil => exact hRest
  | pair _ ih => exact .pair ih
  | char hChar _ ih => exact .char hChar ih

/-! ## The same place -/

/-- The endings `rest` and `rest'` of two texts begin at the same place: the texts in front of them
have the same lines, and so have the endings. -/
def SamePlace (cs cs' rest rest' : List Char) : Prop :=
  ∃ front front', cs = front ++ rest ∧ cs' = front' ++ rest' ∧ SameLines front front' ∧
    SameLines rest rest'

namespace SamePlace

/-- The beginnings of the texts are the same place. -/
theorem whole (h : SameLines cs cs') : SamePlace cs cs' cs cs' :=
  ⟨[], [], rfl, rfl, .nil, h⟩

/-- Behind a pair and behind its line feed is the same place. -/
theorem pair (hRest : SameLines rest rest') :
    SamePlace ('\r' :: '\n' :: rest) ('\n' :: rest') rest rest' :=
  ⟨['\r', '\n'], ['\n'], rfl, rfl, .pair .nil, hRest⟩

/-- Behind the same character is the same place. -/
theorem char {c : Char} (hChar : c ≠ '\r') (hRest : SameLines rest rest') :
    SamePlace (c :: rest) (c :: rest') rest rest' :=
  ⟨[c], [c], rfl, rfl, .char hChar .nil, hRest⟩

/-- Behind a word without line ends. -/
theorem behind {word : List Char} (hWord : '\r' ∉ word) (hRest : SameLines rest rest') :
    SamePlace (word ++ rest) (word ++ rest') rest rest' :=
  ⟨word, word, rfl, rfl, .refl hWord, hRest⟩

theorem trans (h : SamePlace cs cs' mid mid') (hRest : SamePlace mid mid' rest rest') :
    SamePlace cs cs' rest rest' := by
  obtain ⟨front, front', rfl, rfl, hFront, -⟩ := h
  obtain ⟨inner, inner', rfl, rfl, hInner, hSame⟩ := hRest
  exact ⟨front ++ inner, front' ++ inner', (List.append_assoc _ _ _).symm,
    (List.append_assoc _ _ _).symm, hFront.append hInner, hSame⟩

/-- At the same place the rests have the same lines. -/
theorem sameLines (h : SamePlace cs cs' rest rest') : SameLines rest rest' := by
  obtain ⟨-, -, -, -, -, hSame⟩ := h
  exact hSame

end SamePlace

/-- Only behind a carriage return does the position depend on what follows. -/
theorem advance_of_ne {c : Char} (hChar : c ≠ '\r') (p : Position) (cs cs' : List Char) :
    advance p c cs = advance p c cs' := by
  have hEnds : endsLine c cs = endsLine c cs' := by
    rw [endsLine, endsLine, beq_eq_false_iff_ne.mpr hChar, Bool.false_and, Bool.false_and]
  rw [advance, advance, hEnds]

/-- Walking over texts with the same lines ends at the same position. -/
theorem SameLines.positionFrom (h : SameLines front front') (p : Position)
    (rest rest' : List Char) : positionFrom p (front ++ rest) front.length =
      positionFrom p (front' ++ rest') front'.length := by
  induction h generalizing p with
  | nil => exact (positionFrom_zero p rest).trans (positionFrom_zero p rest').symm
  | @pair cs cs' _ ih =>
    -- the carriage return leaves the end of the line to the line feed
    exact ih ⟨p.line + 1, 1⟩
  | @char c cs cs' hChar _ ih =>
    rw [List.cons_append, List.cons_append, List.length_cons, List.length_cons, Text.positionFrom,
      Text.positionFrom, advance_of_ne hChar p (cs ++ rest) (cs' ++ rest'), ih]

theorem SamePlace.locate (h : SamePlace cs cs' rest rest') :
    locate cs rest = locate cs' rest' := by
  obtain ⟨front, front', rfl, rfl, hFront, -⟩ := h
  rw [Text.locate, Text.locate, positionAt, positionAt, List.length_append, List.length_append,
    Nat.add_sub_cancel, Nat.add_sub_cancel]
  exact hFront.positionFrom _ rest rest'

end NameResolution.Text
