import TracedParsers.Parser.Bracketing
import TracedParsers.Proofs.Leaves

/-!
# Nested sequences

Parsers in sequence run one after the other, each on what the one before it left, until one fails or all have
succeeded. How the sequence is nested does not matter: the nest runs its leaves in order, and the brackets show
only in the value.
-/

namespace TracedParsers

variable {σ ε : Type}

/-- The parsers of a list succeed one after the other, each on what the one before it left. -/
inductive Passes : List (AnyParser σ ε) → σ → List AnyValue → σ → Trace → Prop where
  | nil {s : σ} : Passes [] s [] s []
  | cons {p ps s a m as r t u} (first : p.2.Yields s (.success a m) t) (others : Passes ps m as r u) :
      Passes (p :: ps) s (⟨p.1, a⟩ :: as) r (t ++ u)

/-- A parser of the list fails on what the ones before it left, and they had succeeded. -/
inductive Breaks : List (AnyParser σ ε) → σ → ε → Trace → Prop where
  | first {p ps s e t} (fails : p.2.Yields s (.failure e) t) : Breaks (p :: ps) s e t
  | later {p ps s a m e t u} (first : p.2.Yields s (.success a m) t) (others : Breaks ps m e u) :
      Breaks (p :: ps) s e (t ++ u)

variable {ps qs : List (AnyParser σ ε)} {s r : σ} {as : List AnyValue} {e : ε} {t : Trace}

/-! ### Lists one after the other -/

theorem Passes.length (h : Passes ps s as r t) : as.length = ps.length := by
  induction h with
  | nil => rfl
  | cons _ _ ih => rw [List.length_cons, List.length_cons, ih]

theorem passes_append_iff : Passes (ps ++ qs) s as r t ↔
    ∃ as₁ m as₂ t₁ t₂, Passes ps s as₁ m t₁ ∧ Passes qs m as₂ r t₂ ∧ as = as₁ ++ as₂ ∧ t = t₁ ++ t₂ := by
  induction ps generalizing s as t with
  | nil =>
    constructor
    · intro h
      exact ⟨[], s, as, [], t, .nil, h, rfl, rfl⟩
    · rintro ⟨_, _, _, _, _, ⟨⟩, h, rfl, rfl⟩
      exact h
  | cons p ps ih =>
    constructor
    · intro h
      cases h with
      | cons first others =>
        obtain ⟨as₁, m, as₂, t₁, t₂, h₁, h₂, rfl, rfl⟩ := ih.mp others
        exact ⟨_, m, as₂, _, t₂, .cons first h₁, h₂, rfl, (List.append_assoc ..).symm⟩
    · rintro ⟨_, m, as₂, _, t₂, h, h₂, rfl, rfl⟩
      cases h with
      | cons first others =>
        rw [List.cons_append, List.append_assoc]
        exact .cons first (ih.mpr ⟨_, m, as₂, _, t₂, others, h₂, rfl, rfl⟩)

theorem breaks_append_iff : Breaks (ps ++ qs) s e t ↔
    Breaks ps s e t ∨ ∃ as m t₁ t₂, Passes ps s as m t₁ ∧ Breaks qs m e t₂ ∧ t = t₁ ++ t₂ := by
  induction ps generalizing s t with
  | nil =>
    constructor
    · intro h
      exact .inr ⟨[], s, [], t, .nil, h, rfl⟩
    · rintro (h | ⟨_, _, _, _, ⟨⟩, h, rfl⟩)
      · nomatch h
      · exact h
  | cons p ps ih =>
    constructor
    · intro h
      cases h with
      | first fails => exact .inl (.first fails)
      | later first others =>
        rcases ih.mp others with h | ⟨as, m, t₁, t₂, h₁, h₂, rfl⟩
        · exact .inl (.later first h)
        · exact .inr ⟨_, m, _, t₂, .cons first h₁, h₂, (List.append_assoc ..).symm⟩
    · rintro (h | ⟨_, m, _, t₂, h, h₂, rfl⟩)
      · cases h with
        | first fails => exact .first fails
        | later first others => exact .later first (ih.mpr (.inl others))
      · cases h with
        | cons first others =>
          rw [List.append_assoc]
          exact .later first (ih.mpr (.inr ⟨_, m, _, t₂, others, h₂, rfl⟩))

/-- The parser that fails, with those before it. -/
theorem breaks_iff_exists_first : Breaks ps s e t ↔
    ∃ before p after as m t₁ t₂, ps = before ++ p :: after ∧ Passes before s as m t₁ ∧
      p.2.Yields m (.failure e) t₂ ∧ t = t₁ ++ t₂ := by
  constructor
  · intro h
    induction h with
    | @first p ps s e t fails => exact ⟨[], p, ps, [], s, [], t, rfl, .nil, fails, rfl⟩
    | @later p _ _ _ _ _ _ _ first _ ih =>
      obtain ⟨before, q, after, as, m, t₁, t₂, rfl, passes, fails, rfl⟩ := ih
      exact ⟨p :: before, q, after, _, m, _, t₂, rfl, .cons first passes, fails, (List.append_assoc ..).symm⟩
  · rintro ⟨before, p, after, as, m, t₁, t₂, rfl, passes, fails, rfl⟩
    exact breaks_append_iff.mpr (.inr ⟨as, m, t₁, t₂, passes, .first fails, rfl⟩)

/-! ### Bracketings -/

namespace Bracketing

variable {b b' : Bracketing (AnyParser σ ε)}

theorem seq_yields_success_iff {a : b.Pairs} :
    b.seq.Yields s (.success a r) t ↔ Passes b.leaves s (b.values a) r t := by
  induction b generalizing s r t with
  | one p =>
    constructor
    · intro h
      have row := Passes.cons h .nil
      rwa [List.append_nil] at row
    · intro h
      cases h with
      | cons first others =>
        cases others
        rwa [List.append_nil]
  | two left right ihl ihr =>
    obtain ⟨a, c⟩ := a
    refine Parser.yields_seq_success_iff.trans ?_
    simp only [ihl, ihr, leaves, values, passes_append_iff]
    constructor
    · rintro ⟨m, t₁, t₂, hl, hr, rfl⟩
      exact ⟨_, m, _, t₁, t₂, hl, hr, rfl, rfl⟩
    · rintro ⟨as₁, m, as₂, t₁, t₂, hl, hr, has, rfl⟩
      -- The values of the two halves are told apart by their number.
      have hlength : (left.values a).length = as₁.length := (left.length_values a).trans hl.length.symm
      obtain ⟨rfl, rfl⟩ := List.append_inj has hlength
      exact ⟨m, t₁, t₂, hl, hr, rfl⟩

theorem exists_values (h : Passes b.leaves s as r t) : ∃ a, b.values a = as := by
  induction b generalizing s as r t with
  | one p =>
    cases h with
    | cons _ others =>
      cases others
      exact ⟨_, rfl⟩
  | two left right ihl ihr =>
    obtain ⟨as₁, m, as₂, t₁, t₂, hl, hr, rfl, -⟩ := passes_append_iff.mp h
    obtain ⟨a, rfl⟩ := ihl hl
    obtain ⟨c, rfl⟩ := ihr hr
    exact ⟨(a, c), rfl⟩

/-- A nest succeeds exactly where its leaves pass, with their values in it. -/
theorem exists_seq_yields_iff :
    (∃ a, b.values a = as ∧ b.seq.Yields s (.success a r) t) ↔ Passes b.leaves s as r t := by
  constructor
  · rintro ⟨a, rfl, h⟩
    exact seq_yields_success_iff.mp h
  · intro h
    obtain ⟨a, rfl⟩ := exists_values h
    exact ⟨a, rfl, seq_yields_success_iff.mpr h⟩

theorem seq_yields_failure_iff : b.seq.Yields s (.failure e) t ↔ Breaks b.leaves s e t := by
  induction b generalizing s t with
  | one p =>
    constructor
    · exact .first
    · intro h
      cases h with
      | first fails => exact fails
      | later _ others => cases others
  | two left right ihl ihr =>
    refine Parser.yields_seq_failure_iff.trans ?_
    simp only [ihl, ihr, leaves, breaks_append_iff, seq_yields_success_iff]
    refine or_congr_right ?_
    constructor
    · rintro ⟨a, m, t₁, t₂, hl, hr, rfl⟩
      exact ⟨_, m, t₁, t₂, hl, hr, rfl⟩
    · rintro ⟨as, m, t₁, t₂, hl, hr, rfl⟩
      obtain ⟨a, rfl⟩ := exists_values hl
      exact ⟨a, m, t₁, t₂, hl, hr, rfl⟩

theorem seq_yields_failure_of_prefix {before : List (AnyParser σ ε)} {p : AnyParser σ ε} {m : σ} {t₁ t₂ : Trace}
    (passes : Passes before s as m t₁) (fails : p.2.Yields m (.failure e) t₂)
    (starts : (before ++ [p]).IsPrefix b.leaves) : b.seq.Yields s (.failure e) (t₁ ++ t₂) := by
  obtain ⟨after, hleaves⟩ := starts
  rw [List.append_assoc, List.singleton_append] at hleaves
  exact seq_yields_failure_iff.mpr
    (breaks_iff_exists_first.mpr ⟨before, p, after, as, m, t₁, t₂, hleaves.symm, passes, fails, rfl⟩)

/-- Nests of the same parsers in the same order do the same on every input: they succeed with the same plain values,
    one for each parser, and leave the same, or they fail with the same error, and report the same events. They
    succeed exactly where the parsers pass one after the other. The error is that of the first parser that fails on
    what the ones before it left. No later parser runs: a nest that starts with the same parsers fails in the same
    way, whatever comes after them. -/
theorem seq_nesting_is_irrelevant (same : b.leaves = b'.leaves) (s : σ) :
    (∀ (as : List AnyValue) (r : σ) (t : Trace),
      (∃ a, b.values a = as ∧ b.seq.Yields s (.success a r) t) ↔
        ∃ a', b'.values a' = as ∧ b'.seq.Yields s (.success a' r) t) ∧
    (∀ (e : ε) (t : Trace), b.seq.Yields s (.failure e) t ↔ b'.seq.Yields s (.failure e) t) ∧
    (∀ (as : List AnyValue) (r : σ) (t : Trace),
      (∃ a, b.values a = as ∧ b.seq.Yields s (.success a r) t) ↔
        as.length = b.leaves.length ∧ Passes b.leaves s as r t) ∧
    (∀ (e : ε) (t : Trace), b.seq.Yields s (.failure e) t ↔
      ∃ before p after as m t₁ t₂, b.leaves = before ++ p :: after ∧ Passes before s as m t₁ ∧
        p.2.Yields m (.failure e) t₂ ∧ t = t₁ ++ t₂) ∧
    ∀ (before : List (AnyParser σ ε)) (p : AnyParser σ ε) (as : List AnyValue) (m : σ) (e : ε) (t₁ t₂ : Trace),
      Passes before s as m t₁ → p.2.Yields m (.failure e) t₂ →
        ∀ c : Bracketing (AnyParser σ ε), (before ++ [p]).IsPrefix c.leaves →
          c.seq.Yields s (.failure e) (t₁ ++ t₂) := by
  refine ⟨?_, ?_, ?_, ?_, ?_⟩
  · intro as r t
    rw [exists_seq_yields_iff, exists_seq_yields_iff, same]
  · intro e t
    rw [seq_yields_failure_iff, seq_yields_failure_iff, same]
  · intro as r t
    rw [exists_seq_yields_iff]
    constructor
    · intro h
      exact ⟨h.length, h⟩
    · intro h
      exact h.2
  · intro e t
    rw [seq_yields_failure_iff, breaks_iff_exists_first]
  · intro before p as m e t₁ t₂ passes fails c starts
    exact seq_yields_failure_of_prefix passes fails starts

/-- A letter and a digit, and then another letter. -/
def codeThenLetter : Bracketing (AnyParser Text (MatchError Char)) :=
  two (two (one (Matcher.char 'a').any) (one Matcher.digit.any)) (one (Matcher.char 'b').any)

/-- A letter, and then a digit and another letter. -/
def letterThenCode : Bracketing (AnyParser Text (MatchError Char)) :=
  two (one (Matcher.char 'a').any) (two (one Matcher.digit.any) (one (Matcher.char 'b').any))

/-- The same three values under other brackets, and the error of the digit, also where the parser behind it
    never ends. -/
theorem seq_nesting_is_irrelevant_code :
    codeThenLetter.leaves = letterThenCode.leaves ∧
      letterThenCode.seq.Yields (.ofString "a1b!") (.success ('a', (1 : Nat), 'b') (.ofString "!")) [] ∧
      letterThenCode.seq.Yields (.ofString "ab") (.failure (.unexpected "ASCII digit" 'b')) [] ∧
      ((Matcher.char 'a').seq (Matcher.digit.seq (.never : Parser _ _ Unit))).Yields (.ofString "ab")
        (.failure (.unexpected "ASCII digit" 'b')) [] := by
  have same : codeThenLetter.leaves = letterThenCode.leaves := rfl
  have hletter (cs : List Char) : (Matcher.char 'a').any.2.Yields (.ofList ('a' :: cs)) (.success 'a' (.ofList cs)) [] :=
    TextLeaf.yields_char 'a' cs
  have hdigit : Matcher.digit.any.2.Yields (.ofString "1b!") (.success (1 : Nat) (.ofString "b!")) [] :=
    (TextLeaf.digit).yields_iff.mpr ⟨_, .success rfl, rfl⟩
  have hlast : (Matcher.char 'b').any.2.Yields (.ofString "b!") (.success 'b' (.ofString "!")) [] :=
    TextLeaf.yields_char 'b' ['!']
  have hother : Matcher.digit.any.2.Yields (.ofString "b") (.failure (.unexpected "ASCII digit" 'b')) [] :=
    (TextLeaf.digit).yields_iff.mpr ⟨_, .other rfl, rfl⟩
  have hread : codeThenLetter.seq.Yields (.ofString "a1b!") (.success (('a', (1 : Nat)), 'b') (.ofString "!")) [] :=
    seq_yields_success_iff.mpr (.cons (hletter ['1', 'b', '!']) (.cons hdigit (.cons hlast .nil)))
  have hfail : codeThenLetter.seq.Yields (.ofString "ab") (.failure (.unexpected "ASCII digit" 'b')) [] :=
    seq_yields_failure_iff.mpr (.later (hletter ['b']) (.first hother))
  obtain ⟨hsuccess, -⟩ := seq_nesting_is_irrelevant same (.ofString "a1b!")
  obtain ⟨-, hfailure, -, -, hbreak⟩ := seq_nesting_is_irrelevant same (.ofString "ab")
  refine ⟨same, ?_, (hfailure _ _).mp hfail, ?_⟩
  · obtain ⟨⟨x, n, y⟩, hvalues, h⟩ := (hsuccess _ _ _).mp ⟨_, rfl, hread⟩
    cases hvalues
    exact h
  · have hbefore : Passes [(Matcher.char 'a').any] (.ofString "ab") [⟨Char, 'a'⟩] (.ofString "b") [] :=
      .cons (hletter ['b']) .nil
    exact hbreak _ _ _ _ _ _ _ hbefore hother
      (two (one (Matcher.char 'a').any) (two (one Matcher.digit.any) (one (Parser.never : Parser _ _ Unit).any)))
      ⟨_, rfl⟩

end Bracketing
end TracedParsers
