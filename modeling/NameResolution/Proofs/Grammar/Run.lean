import NameResolution.Grammar.Parser

/-!
# Runs — what the combinators make of the parsers they are given

A sequence matches where its parts match one after the other, a choice where the first alternative
matches or where it rejects and the second one matches. A repetition is described by a run: the
items it reads, each of which takes at least one character.

* `bind_eq_matched`, `orElse_eq_matched`, `optional_eq_matched` — how a match has come about.
* `Runs`, `many_of_runs` — repetitions that end where the next item is rejected.
* `fix_eq` — a parser that is defined through itself obeys its definition.
-/

namespace NameResolution.Grammar.Parser

variable {α β σ : Type} {p q : Parser α} {k : α → Parser β} {ctx : Context}
  {cs mid rest : List Char} {a : α} {b : β}

/-! ## Sequence -/

/-- An answer alone reads nothing. -/
theorem pure_eq_matched {a' : α} :
    (pure a : Parser α) ctx cs = .matched a' rest ↔ a = a' ∧ cs = rest := by
  show Outcome.matched a cs = .matched a' rest ↔ _
  rw [Outcome.matched.injEq]

/-- What follows goes on where the first parser has stopped. -/
theorem bind_of_matched (h : p ctx cs = .matched a mid) :
    (p >>= k) ctx cs = k a ctx mid := by
  show Parser.andThen p k ctx cs = _
  rw [andThen, h]

/-- Nothing follows a parser that rejects the text. -/
theorem bind_of_rejected (h : p ctx cs = .rejected) : (p >>= k) ctx cs = .rejected := by
  show Parser.andThen p k ctx cs = _
  rw [andThen, h]

/-- Nothing follows a number that is too long. -/
theorem bind_of_tooLong {digits : Nat} (h : p ctx cs = .tooLong digits) :
    (p >>= k) ctx cs = .tooLong digits := by
  show Parser.andThen p k ctx cs = _
  rw [andThen, h]

/-- Two parsers in a row match exactly if they match one after the other. -/
theorem bind_eq_matched : (p >>= k) ctx cs = .matched b rest ↔
    ∃ a mid, p ctx cs = .matched a mid ∧ k a ctx mid = .matched b rest := by
  constructor
  · intro h
    cases hFirst : p ctx cs with
    -- the second parser decides; in the other two cases there is no answer to give it
    | matched a mid =>
      rw [bind_of_matched hFirst] at h
      exact ⟨a, mid, rfl, h⟩
    | rejected =>
      rw [bind_of_rejected hFirst] at h
      cases h
    | tooLong digits =>
      rw [bind_of_tooLong hFirst] at h
      cases h
  · rintro ⟨a, mid, hFirst, hNext⟩
    rw [bind_of_matched hFirst, hNext]

/-- A function is applied to what is read. -/
theorem map_of_matched {f : α → β} (h : p ctx cs = .matched a rest) :
    (f <$> p) ctx cs = .matched (f a) rest :=
  bind_of_matched h

/-- A function does not help a parser that rejects the text. -/
theorem map_of_rejected {f : α → β} (h : p ctx cs = .rejected) :
    (f <$> p) ctx cs = .rejected :=
  bind_of_rejected h

/-- A function does not help against a number that is too long. -/
theorem map_of_tooLong {f : α → β} {digits : Nat} (h : p ctx cs = .tooLong digits) :
    (f <$> p) ctx cs = .tooLong digits :=
  bind_of_tooLong h

/-- A function changes the answer only. -/
theorem map_eq_matched {f : α → β} : (f <$> p) ctx cs = .matched b rest ↔
    ∃ a, p ctx cs = .matched a rest ∧ f a = b := by
  constructor
  · intro h
    obtain ⟨a, mid, hFirst, hPure⟩ := bind_eq_matched.mp h
    obtain ⟨hValue, hRest⟩ := pure_eq_matched.mp hPure
    exact ⟨a, by rw [hFirst, hRest], hValue⟩
  · rintro ⟨a, hFirst, hValue⟩
    rw [map_of_matched hFirst, hValue]

/-- It does not matter how the parts of a sequence are put together. -/
theorem andThen_assoc {γ : Type} (p : Parser α) (k : α → Parser β) (next : β → Parser γ) :
    p >>= k >>= next = p >>= fun x => k x >>= next := by
  funext ctx cs
  cases h : p ctx cs with
  -- with a first answer both sides are the same two parsers behind it
  | matched a mid =>
    have hFirst : (p >>= k) ctx cs = k a ctx mid := bind_of_matched h
    have hBoth : (p >>= fun x => k x >>= next) ctx cs = (k a >>= next) ctx mid :=
      bind_of_matched h
    rw [hBoth]
    show andThen (p >>= k) next ctx cs = andThen (k a) next ctx mid
    rw [andThen, andThen, hFirst]
  | rejected => rw [bind_of_rejected h, bind_of_rejected (bind_of_rejected h)]
  | tooLong digits => rw [bind_of_tooLong h, bind_of_tooLong (bind_of_tooLong h)]

/-- Applying the identity changes nothing. -/
theorem map_id (p : Parser α) : id <$> p = p := by
  funext ctx cs
  cases h : p ctx cs with
  | matched a rest => exact map_of_matched h
  | rejected => exact map_of_rejected h
  | tooLong digits => exact map_of_tooLong h

instance : LawfulMonad Parser :=
  LawfulMonad.mk' Parser map_id (fun _ _ => rfl) andThen_assoc

/-! ## Choice -/

/-- The second choice is not tried if the first one matches. -/
theorem orElse_of_matched (h : p ctx cs = .matched a rest) :
    (p <|> q) ctx cs = .matched a rest := by
  show p.orElse q ctx cs = _
  rw [Parser.orElse, h]

/-- The second choice is tried if the first one rejects the text. -/
theorem orElse_of_rejected (h : p ctx cs = .rejected) : (p <|> q) ctx cs = q ctx cs := by
  show p.orElse q ctx cs = _
  rw [Parser.orElse, h]

/-- Of the second choice only its outcome matters. -/
theorem orElse_congr {q' : Parser α} (h : q ctx cs = q' ctx cs) :
    (p <|> q) ctx cs = (p <|> q') ctx cs := by
  show p.orElse q ctx cs = p.orElse q' ctx cs
  rw [Parser.orElse, Parser.orElse, h]

/-- A choice matches if the first one does, or rejects and the second one matches. -/
theorem orElse_eq_matched : (p <|> q) ctx cs = .matched a rest ↔
    p ctx cs = .matched a rest ∨
      p ctx cs = .rejected ∧ q ctx cs = .matched a rest := by
  constructor
  · intro h
    cases hFirst : p ctx cs with
    | matched _ _ =>
      rw [orElse_of_matched hFirst] at h
      exact .inl h
    | rejected =>
      rw [orElse_of_rejected hFirst] at h
      exact .inr ⟨rfl, h⟩
    | tooLong digits =>
      -- a number that is too long ends the reading, and nothing else is tried
      change p.orElse q ctx cs = _ at h
      rw [Parser.orElse, hFirst] at h
      cases h
  · rintro (h | ⟨hFirst, h⟩)
    · exact orElse_of_matched h
    · rw [orElse_of_rejected hFirst, h]

/-- An optional part is there if it matches. -/
theorem optional_of_matched (h : p ctx cs = .matched a rest) :
    optional p ctx cs = .matched (some a) rest :=
  orElse_of_matched (map_of_matched h)

/-- An optional part is missing if it is rejected. -/
theorem optional_of_rejected (h : p ctx cs = .rejected) :
    optional p ctx cs = .matched none cs :=
  orElse_of_rejected (map_of_rejected h)

/-- An optional part is there or missing, and the parser decides which. -/
theorem optional_eq_matched {a? : Option α} : optional p ctx cs = .matched a? rest ↔
    (∃ a, a? = some a ∧ p ctx cs = .matched a rest) ∨
      (a? = none ∧ p ctx cs = .rejected ∧ cs = rest) := by
  constructor
  · intro h
    rcases orElse_eq_matched.mp h with hMap | ⟨hMap, hPure⟩
    · obtain ⟨a, hFirst, rfl⟩ := map_eq_matched.mp hMap
      exact .inl ⟨a, rfl, hFirst⟩
    · obtain ⟨rfl, hRest⟩ := pure_eq_matched.mp hPure
      refine .inr ⟨rfl, ?_, hRest⟩
      cases hFirst : p ctx cs with
      | rejected => rfl
      | matched a mid =>
        rw [map_of_matched hFirst] at hMap
        cases hMap
      | tooLong digits =>
        -- an overlong number is passed on, it does not count as rejected
        change Parser.andThen p (pure ∘ some) ctx cs = _ at hMap
        rw [andThen, hFirst] at hMap
        cases hMap
  · rintro (⟨a, rfl, h⟩ | ⟨rfl, h, rfl⟩)
    · exact optional_of_matched h
    · exact optional_of_rejected h

/-- What is rejected is not ahead. -/
theorem notAhead_of_rejected (h : p ctx cs = .rejected) :
    notAhead p ctx cs = .matched () cs := by
  rw [notAhead, h]

/-- What matches is ahead, so the look is in vain. -/
theorem notAhead_of_matched (h : p ctx cs = .matched a rest) :
    notAhead p ctx cs = .rejected := by
  rw [notAhead, h]

/-- A look that succeeds has read nothing. -/
theorem notAhead_eq_matched {u : Unit} (h : notAhead p ctx cs = .matched u rest) :
    p ctx cs = .rejected ∧ cs = rest := by
  rw [notAhead] at h
  cases hFirst : p ctx cs with
  | matched a mid =>
    rw [hFirst] at h
    cases h
  | rejected =>
    rw [hFirst] at h
    cases h
    exact ⟨rfl, rfl⟩
  | tooLong digits =>
    rw [hFirst] at h
    cases h

/-! ## Repetition -/

/-- `p` reads the items one after the other, each from at least one character. -/
inductive Runs (p : Parser α) (ctx : Context) :
    List Char → List α → List Char → Prop where
  | nil (cs : List Char) : Runs p ctx cs [] cs
  | cons {cs mid rest : List Char} {a : α} {as : List α} (hItem : p ctx cs = .matched a mid)
      (hShorter : mid.length < cs.length) (hRuns : Runs p ctx mid as rest) :
      Runs p ctx cs (a :: as) rest

/-- One item more behind a run. -/
theorem Runs.snoc {as : List α} (hRuns : Runs p ctx cs as mid)
    (hItem : p ctx mid = .matched a rest) (hShorter : rest.length < mid.length) :
    Runs p ctx cs (as ++ [a]) rest := by
  induction hRuns with
  | nil cs => exact .cons hItem hShorter (.nil rest)
  | cons hFirst hFirstShorter _ ih => exact .cons hFirst hFirstShorter (ih hItem hShorter)

/-- With fuel left the item is tried once more. -/
theorem manyUpTo_succ (p : Parser α) (n : Nat) (ctx : Context) (cs : List Char) :
    manyUpTo p (n + 1) ctx cs =
      match p ctx cs with
      | .matched value rest => ((value :: ·) <$> manyUpTo p n) ctx rest
      | .rejected => .matched [] cs
      | .tooLong digits => .tooLong digits := rfl

/-- A run that cannot go on is what the repetition reads. -/
theorem manyUpTo_of_runs {as : List α} {n : Nat} (hRuns : Runs p ctx cs as rest)
    (hStop : p ctx rest = .rejected) (hFuel : cs.length ≤ n) :
    manyUpTo p n ctx cs = .matched as rest := by
  induction hRuns generalizing n with
  | nil cs =>
    cases n with
    | zero => rfl
    | succ n => rw [manyUpTo_succ, hStop]
  -- each item takes a character, so the bound lasts
  | @cons cs mid rest a as hItem hShorter _ ih =>
    cases n with
    | zero => omega
    | succ n =>
      rw [manyUpTo_succ, hItem]
      exact map_of_matched (ih hStop (by omega))

/-- A run up to where the next item is rejected is all that the repetition reads. -/
theorem many_of_runs {as : List α} (hRuns : Runs p ctx cs as rest)
    (hStop : p ctx rest = .rejected) : many p ctx cs = .matched as rest :=
  manyUpTo_of_runs hRuns hStop (Nat.le_refl cs.length)

/-- What holds of the empty repetition and of one more item in front holds of what a repetition
reads. -/
theorem many_induction {motive : List Char → List α → List Char → Prop} {as : List α}
    (hNil : ∀ cs, motive cs [] cs)
    (hCons : ∀ {cs a mid as rest}, p ctx cs = .matched a mid → motive mid as rest →
      motive cs (a :: as) rest)
    (h : many p ctx cs = .matched as rest) : motive cs as rest := by
  rw [many] at h
  -- the bound on the number of items is the length of the text, but the induction needs any
  generalize cs.length = n at h
  induction n generalizing cs as with
  | zero =>
    obtain ⟨rfl, rfl⟩ := pure_eq_matched.mp h
    exact hNil cs
  | succ n ih =>
    rw [manyUpTo_succ] at h
    cases hFirst : p ctx cs with
    | matched a mid =>
      rw [hFirst] at h
      obtain ⟨as, hRest, rfl⟩ := map_eq_matched.mp h
      exact hCons hFirst (ih hRest)
    | rejected =>
      rw [hFirst] at h
      cases h
      exact hNil _
    | tooLong digits =>
      rw [hFirst] at h
      cases h

/-! ## Less text after each match -/

/-- What follows a match is never longer than the text. -/
def Keeps (p : Parser α) : Prop :=
  ∀ ctx cs a rest, p ctx cs = .matched a rest → rest.length ≤ cs.length

/-- A match takes at least one character. -/
def Shrinks (p : Parser α) : Prop :=
  ∀ ctx cs a rest, p ctx cs = .matched a rest → rest.length < cs.length

/-- What takes something from the text does not lengthen it. -/
theorem Shrinks.keeps (hp : Shrinks p) : Keeps p := by
  intro ctx cs a rest h
  exact Nat.le_of_lt (hp ctx cs a rest h)

/-- An answer alone takes nothing. -/
theorem Keeps.pure (a : α) : Keeps (Pure.pure a) := by
  intro ctx cs b rest h
  obtain ⟨-, rfl⟩ := pure_eq_matched.mp h
  exact Nat.le_refl _

/-- Two parsers in a row lengthen nothing. -/
theorem Keeps.bind (hp : Keeps p) (hk : ∀ a, Keeps (k a)) : Keeps (p >>= k) := by
  intro ctx cs b rest h
  obtain ⟨a, mid, hFirst, hNext⟩ := bind_eq_matched.mp h
  have := hp _ _ _ _ hFirst
  have := hk _ _ _ _ _ hNext
  omega

/-- Two parsers in a row take something if the first one does. -/
theorem Shrinks.bind (hp : Shrinks p) (hk : ∀ a, Keeps (k a)) : Shrinks (p >>= k) := by
  intro ctx cs b rest h
  obtain ⟨a, mid, hFirst, hNext⟩ := bind_eq_matched.mp h
  have := hp _ _ _ _ hFirst
  have := hk _ _ _ _ _ hNext
  omega

/-- Two parsers in a row take something if the second one does. -/
theorem Keeps.bind_shrinks (hp : Keeps p) (hk : ∀ a, Shrinks (k a)) : Shrinks (p >>= k) := by
  intro ctx cs b rest h
  obtain ⟨a, mid, hFirst, hNext⟩ := bind_eq_matched.mp h
  have := hp _ _ _ _ hFirst
  have := hk _ _ _ _ _ hNext
  omega

theorem Keeps.map {f : α → β} (hp : Keeps p) : Keeps (f <$> p) :=
  hp.bind fun a => Keeps.pure (f a)

theorem Shrinks.map {f : α → β} (hp : Shrinks p) : Shrinks (f <$> p) :=
  hp.bind fun a => Keeps.pure (f a)

/-- A choice lengthens nothing. -/
theorem Keeps.orElse (hp : Keeps p) (hq : Keeps q) : Keeps (p <|> q) := by
  intro ctx cs a rest h
  rcases orElse_eq_matched.mp h with hFirst | ⟨-, hSecond⟩
  · exact hp _ _ _ _ hFirst
  · exact hq _ _ _ _ hSecond

/-- A choice takes something if both sides do. -/
theorem Shrinks.orElse (hp : Shrinks p) (hq : Shrinks q) : Shrinks (p <|> q) := by
  intro ctx cs a rest h
  rcases orElse_eq_matched.mp h with hFirst | ⟨-, hSecond⟩
  · exact hp _ _ _ _ hFirst
  · exact hq _ _ _ _ hSecond

theorem Keeps.optional (hp : Keeps p) : Keeps (Parser.optional p) :=
  hp.map.orElse (Keeps.pure none)

theorem Keeps.notAhead : Keeps (Parser.notAhead p) := by
  intro ctx cs u rest h
  exact Nat.le_of_eq (congrArg List.length (notAhead_eq_matched h).2.symm)

/-- A repetition lengthens nothing. -/
theorem Keeps.many (hp : Keeps p) : Keeps (Parser.many p) := by
  intro ctx cs as rest h
  refine many_induction (motive := fun cs _ rest => rest.length ≤ cs.length) ?_ ?_ h
  · intro cs
    exact Nat.le_refl _
  · intro cs a mid as rest hItem hRest
    have := hp _ _ _ _ hItem
    omega

/-- A list with separators lengthens nothing. -/
theorem Keeps.sepBy {separator : Parser σ} (hp : Keeps p) (hs : Keeps separator) :
    Keeps (Parser.sepBy p separator) :=
  hp.optional.bind fun _ => (hs.bind fun _ => hp).many.bind fun _ => Keeps.pure _

/-! ## Parsers that agree on short texts -/

/-- The two parsers do the same on every text of fewer than `n` characters. -/
def AgreeBelow (n : Nat) (p q : Parser α) : Prop :=
  ∀ ctx cs, cs.length < n → p ctx cs = q ctx cs

variable {n : Nat} {p' : Parser α} {k' : α → Parser β}

theorem AgreeBelow.refl (n : Nat) (p : Parser α) : AgreeBelow n p p := fun _ _ _ => rfl

/-- Parsers in a row agree on short texts, as the first one leaves a text that is no longer. -/
theorem AgreeBelow.bind (hp : AgreeBelow n p p') (hKeeps : Keeps p')
    (hk : ∀ a, AgreeBelow n (k a) (k' a)) : AgreeBelow n (p >>= k) (p' >>= k') := by
  intro ctx cs hLength
  show Parser.andThen p k ctx cs = Parser.andThen p' k' ctx cs
  rw [andThen, andThen, hp ctx cs hLength]
  cases hFirst : p' ctx cs with
  | matched a mid =>
    have := hKeeps _ _ _ _ hFirst
    exact hk a ctx mid (by omega)
  | rejected => rfl
  | tooLong digits => rfl

/-- Behind a part that takes a character, agreement is only needed on shorter texts. -/
theorem AgreeBelow.bind_shrinks (hShrinks : Shrinks p) (hk : ∀ a, AgreeBelow n (k a) (k' a)) :
    AgreeBelow (n + 1) (p >>= k) (p >>= k') := by
  intro ctx cs hLength
  show Parser.andThen p k ctx cs = Parser.andThen p k' ctx cs
  rw [andThen, andThen]
  cases hFirst : p ctx cs with
  | matched a mid =>
    have := hShrinks _ _ _ _ hFirst
    exact hk a ctx mid (by omega)
  | rejected => rfl
  | tooLong digits => rfl

theorem AgreeBelow.bind_left (hp : AgreeBelow n p p') : AgreeBelow n (p >>= k) (p' >>= k) := by
  intro ctx cs hLength
  show Parser.andThen p k ctx cs = Parser.andThen p' k ctx cs
  rw [andThen, andThen, hp ctx cs hLength]

theorem AgreeBelow.map {f : α → β} (hp : AgreeBelow n p p') :
    AgreeBelow n (f <$> p) (f <$> p') :=
  hp.bind_left

/-- Choices agree on short texts if both sides do. -/
theorem AgreeBelow.orElse {q' : Parser α} (hp : AgreeBelow n p p') (hq : AgreeBelow n q q') :
    AgreeBelow n (p <|> q) (p' <|> q') := by
  intro ctx cs hLength
  show p.orElse q ctx cs = p'.orElse q' ctx cs
  rw [Parser.orElse, Parser.orElse, hp ctx cs hLength, hq ctx cs hLength]

theorem AgreeBelow.optional (hp : AgreeBelow n p p') :
    AgreeBelow n (Parser.optional p) (Parser.optional p') :=
  hp.map.orElse (AgreeBelow.refl n _)

/-- Repetitions agree on short texts if the items do. -/
theorem AgreeBelow.manyUpTo (hp : AgreeBelow n p p') (hKeeps : Keeps p') (m : Nat) :
    AgreeBelow n (Parser.manyUpTo p m) (Parser.manyUpTo p' m) := by
  induction m with
  | zero => exact AgreeBelow.refl n _
  | succ m ih =>
    intro ctx cs hLength
    rw [manyUpTo_succ, manyUpTo_succ, hp ctx cs hLength]
    cases hFirst : p' ctx cs with
    | matched a mid =>
      -- an item lengthens nothing, so what is left is still below the bound
      have := hKeeps _ _ _ _ hFirst
      exact ih.map ctx mid (by omega)
    | rejected => rfl
    | tooLong digits => rfl

theorem AgreeBelow.many (hp : AgreeBelow n p p') (hKeeps : Keeps p') :
    AgreeBelow n (Parser.many p) (Parser.many p') := by
  intro ctx cs hLength
  exact hp.manyUpTo hKeeps cs.length ctx cs hLength

/-- Lists with separators agree on short texts if the items do. -/
theorem AgreeBelow.sepBy {separator : Parser σ} (hp : AgreeBelow n p p') (hKeeps : Keeps p')
    (hSeparator : Keeps separator) :
    AgreeBelow n (Parser.sepBy p separator) (Parser.sepBy p' separator) := by
  -- the first item, then the run of the others, each behind its separator
  refine hp.optional.bind hKeeps.optional fun first? => ?_
  refine AgreeBelow.bind_left ?_
  refine AgreeBelow.many ?_ (hSeparator.bind fun _ => hKeeps)
  exact (AgreeBelow.refl n separator).bind hSeparator fun _ => hp

/-! ## Recursion -/

/-- The rule does not lengthen the text, and it enters the parser it is given only behind the first
character. -/
structure Guarded (rule : Parser α → Parser α) : Prop where
  keeps : ∀ {p}, Keeps p → Keeps (rule p)
  agree : ∀ {n p q}, Keeps q → AgreeBelow n p q → AgreeBelow (n + 1) (rule p) (rule q)

variable {rule : Parser α → Parser α}

/-- An unrolled rule lengthens nothing. -/
theorem Guarded.unroll_keeps (hRule : Guarded rule) (n : Nat) : Keeps (unroll rule n) := by
  induction n with
  | zero =>
    intro ctx cs a rest h
    cases h
  | succ n ih => exact hRule.keeps ih

/-- Unrolling a rule further makes no difference for short texts. -/
theorem Guarded.unroll_agree (hRule : Guarded rule) (m : Nat) {n n' : Nat} (hn : m ≤ n)
    (hn' : m ≤ n') : AgreeBelow m (unroll rule n) (unroll rule n') := by
  induction m generalizing n n' with
  | zero =>
    intro ctx cs hLength
    omega
  | succ m ih =>
    cases n with
    | zero => omega
    | succ n =>
      cases n' with
      | zero => omega
      | succ n' =>
        -- both unrollings enter themselves on a shorter text only, where they agree
        exact hRule.agree (hRule.unroll_keeps n') (ih (by omega) (by omega))

/-- A recursive rule lengthens nothing. -/
theorem Guarded.fix_keeps (hRule : Guarded rule) : Keeps (fix rule) := by
  intro ctx cs a rest h
  exact hRule.unroll_keeps (cs.length + 1) ctx cs a rest h

/-- Entered often enough, the unrolled rule does what the parser does. -/
theorem Guarded.unroll_eq_fix (hRule : Guarded rule) (n : Nat) :
    AgreeBelow n (unroll rule n) (fix rule) := by
  intro ctx cs hLength
  exact hRule.unroll_agree (cs.length + 1) (by omega) (Nat.le_refl _) ctx cs (by omega)

/-- **Unfolding.** A parser that is defined through itself is what its rule makes of it. -/
theorem Guarded.fix_eq (hRule : Guarded rule) : fix rule = rule (fix rule) := by
  funext ctx cs
  exact hRule.agree hRule.fix_keeps (hRule.unroll_eq_fix cs.length) ctx cs (Nat.lt_succ_self _)

end NameResolution.Grammar.Parser
