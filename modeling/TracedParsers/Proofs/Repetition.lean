import TracedParsers.Proofs.Leaves

/-!
# What a repetition takes

A repetition of any parser is a row of attempts, each on the input that the one before it left: all of them
succeed but the last. The values are those of the successes, and what is left is the input of the attempt that
failed. A repetition of at least one is the parser and then its repetition, but for the last event.
-/

namespace TracedParsers
namespace Parser

variable {σ ε α : Type} {p : Parser σ ε α} {s r : σ} {a : α} {as : List α} {e : ε} {inputs : List σ}
  {t : Trace} {traces : List Trace}

/-- A row of attempts that starts at `s`: the attempt on each input gives the value that has its place and leaves
    the next input, and the attempt on the last input, which is `r`, fails. -/
structure Attempts (p : Parser σ ε α) (s : σ) (values : List α) (r : σ) (error : ε) (inputs : List σ)
    (traces : List Trace) : Prop where
  inputs_length : inputs.length = values.length + 1
  traces_length : traces.length = values.length + 1
  first : inputs[0] = s
  last : inputs[values.length] = r
  succeeds : ∀ i (h : i < values.length), p.Yields inputs[i] (.success values[i] inputs[i + 1]) traces[i]
  fails : p.Yields r (.failure error) traces[values.length]

theorem Attempts.nil (h : p.Yields s (.failure e) t) : Attempts p s [] s e [s] [t] where
  inputs_length := rfl
  traces_length := rfl
  first := rfl
  last := rfl
  succeeds _ h := nomatch h
  fails := h

theorem Attempts.cons {m : σ} (h : p.Yields s (.success a m) t) (others : Attempts p m as r e inputs traces) :
    Attempts p s (a :: as) r e (s :: inputs) (t :: traces) where
  inputs_length := congrArg (· + 1) others.inputs_length
  traces_length := congrArg (· + 1) others.traces_length
  first := rfl
  last := others.last
  succeeds i hi := by
    cases i with
    | zero =>
      have hinput := others.inputs_length
      have hm : inputs[0] = m := others.first
      show p.Yields s (.success a inputs[0]) t
      rwa [hm]
    | succ i => exact others.succeeds i (Nat.lt_of_succ_lt_succ hi)
  fails := others.fails

theorem Attempts.eq_of_nil (h : Attempts p s [] r e inputs traces) :
    r = s ∧ ∃ t, traces = [t] ∧ p.Yields s (.failure e) t := by
  obtain ⟨t, rfl⟩ := List.length_eq_one_iff.mp h.traces_length
  have hr : r = s := h.last.symm.trans h.first
  exact ⟨hr, t, rfl, hr ▸ h.fails⟩

theorem Attempts.uncons (h : Attempts p s (a :: as) r e inputs traces) :
    ∃ m inputs' t traces', p.Yields s (.success a m) t ∧ Attempts p m as r e inputs' traces' ∧
      traces = t :: traces' := by
  obtain ⟨s', inputs', rfl⟩ := List.exists_cons_of_length_eq_add_one h.inputs_length
  obtain ⟨t, traces', rfl⟩ := List.exists_cons_of_length_eq_add_one h.traces_length
  have hinputs : inputs'.length = as.length + 1 := Nat.succ.inj h.inputs_length
  obtain rfl : s' = s := h.first
  refine ⟨inputs'[0], inputs', t, traces', h.succeeds 0 (Nat.succ_pos _), ?_, rfl⟩
  exact
    { inputs_length := hinputs
      traces_length := Nat.succ.inj h.traces_length
      first := rfl
      last := h.last
      succeeds := fun i hi => h.succeeds (i + 1) (Nat.succ_lt_succ hi)
      fails := h.fails }

/-- The loop takes the values of a row of attempts and stops at its last input. -/
theorem ends_items_iff_attempts :
    (p.items s).Ends (as, r) t ↔ ∃ e inputs traces, Attempts p s as r e inputs traces ∧ t = traces.flatten := by
  induction as generalizing s t with
  | nil =>
    rw [ends_items_nil_iff]
    constructor
    · rintro ⟨rfl, e, hp⟩
      exact ⟨e, _, [t], .nil hp, List.flatten_singleton.symm⟩
    · rintro ⟨e, inputs, traces, row, rfl⟩
      obtain ⟨hr, t, rfl, hp⟩ := row.eq_of_nil
      rw [List.flatten_singleton]
      exact ⟨hr, e, hp⟩
  | cons a as ih =>
    rw [ends_items_cons_iff]
    constructor
    · rintro ⟨m, t₁, t₂, hp, hi, rfl⟩
      obtain ⟨e, inputs, traces, row, rfl⟩ := ih.mp hi
      exact ⟨e, _, _, row.cons hp, List.flatten_cons.symm⟩
    · rintro ⟨e, inputs, traces, row, rfl⟩
      obtain ⟨m, inputs', t₁, traces', hp, others, rfl⟩ := row.uncons
      rw [List.flatten_cons]
      exact ⟨m, t₁, _, hp, ih.mpr ⟨e, inputs', traces', others, rfl⟩, rfl⟩

/-! ### Zero or more -/

theorem yields_many_of_failure (h : p.Yields s (.failure e) t) :
    p.many.Yields s (.success [] s) (t ++ [.stopped 0]) :=
  yields_many_success_iff.mpr ⟨t, ends_items_nil_iff.mpr ⟨rfl, e, h⟩, rfl⟩

/-- A repetition of any parser takes the values of a row of attempts, as long as the row goes, and leaves the input
    of the attempt that fails. It reports the events of all attempts and then the number of values, and never
    fails. So there is nothing left to repeat, and the parser fails behind its own repetition. -/
theorem many_takes_attempts (p : Parser σ ε α) (s : σ) :
    (∀ (as : List α) (r : σ) (t : Trace), p.many.Yields s (.success as r) t ↔
      ∃ e inputs traces, Attempts p s as r e inputs traces ∧ t = traces.flatten ++ [.stopped as.length]) ∧
    (∀ (e : ε) (t : Trace), ¬p.many.Yields s (.failure e) t) ∧
    ∀ (as : List α) (r : σ) (t : Trace), p.many.Yields s (.success as r) t →
      ∃ e u, p.Yields r (.failure e) u ∧ p.many.Yields r (.success [] r) (u ++ [.stopped 0]) ∧
        (p.many.seq p).Yields s (.failure e) (t ++ u) := by
  have hmany (as : List α) (r : σ) (t : Trace) : p.many.Yields s (.success as r) t ↔
      ∃ e inputs traces, Attempts p s as r e inputs traces ∧ t = traces.flatten ++ [.stopped as.length] := by
    rw [yields_many_success_iff]
    simp only [ends_items_iff_attempts]
    constructor
    · rintro ⟨_, ⟨e, inputs, traces, row, rfl⟩, rfl⟩
      exact ⟨e, inputs, traces, row, rfl⟩
    · rintro ⟨e, inputs, traces, row, rfl⟩
      exact ⟨_, ⟨e, inputs, traces, row, rfl⟩, rfl⟩
  refine ⟨hmany, fun e t => not_yields_many_failure, ?_⟩
  intro as r t h
  obtain ⟨e, inputs, traces, row, -⟩ := (hmany as r t).mp h
  refine ⟨e, _, row.fails, yields_many_of_failure row.fails, ?_⟩
  exact yields_seq.mpr (.inr ⟨as, r, _, t, _, h, row.fails, rfl, rfl⟩)

/-- The letters a and b, one after the other. -/
def letterPair : Parser Text (MatchError Char) (Char × Char) :=
  (Matcher.char 'a').seq (Matcher.char 'b')

/-- After one pair the next attempt reads a letter before it fails, and this letter is given back. -/
theorem many_takes_attempts_letterPair :
    letterPair.many.Yields (.ofString "abac") (.success [('a', 'b')] (.ofString "ac")) [.stopped 1] ∧
      letterPair.many.Yields (.ofString "ac") (.success [] (.ofString "ac")) [.stopped 0] ∧
      (letterPair.many.seq letterPair).Yields (.ofString "abac") (.failure (.unexpected (inspect 'b') 'c'))
        [.stopped 1] := by
  have hpair : letterPair.Yields (.ofString "abac") (.success ('a', 'b') (.ofString "ac")) [] :=
    yields_seq.mpr (.inr ⟨_, _, _, _, _, TextLeaf.yields_char 'a' ['b', 'a', 'c'],
      TextLeaf.yields_char 'b' ['a', 'c'], rfl, rfl⟩)
  have hhalf : letterPair.Yields (.ofString "ac") (.failure (.unexpected (inspect 'b') 'c')) [] :=
    yields_seq.mpr (.inr ⟨_, _, _, _, _, TextLeaf.yields_char 'a' ['c'],
      TextLeaf.yields_char_other 'b' 'c' [] rfl, rfl, rfl⟩)
  have row := (Attempts.nil hhalf).cons hpair
  obtain ⟨hmany, -, hover⟩ := many_takes_attempts letterPair (.ofString "abac")
  have hread := (hmany _ _ _).mpr ⟨_, _, _, row, rfl⟩
  obtain ⟨e, u, hfail, hagain, hseq⟩ := hover _ _ _ hread
  obtain ⟨he, rfl⟩ := hfail.unique hhalf
  cases he
  exact ⟨hread, hagain, hseq⟩

/-! ### One or more -/

theorem yields_then_many_failure_iff :
    ((p.seq p.many).map fun x => x.1 :: x.2).Yields s (.failure e) t ↔ p.Yields s (.failure e) t := by
  rw [yields_map_failure_iff, yields_seq_failure_iff]
  constructor
  · rintro (hp | ⟨_, _, _, _, _, hm, _⟩)
    · exact hp
    · exact absurd hm not_yields_many_failure
  · exact .inl

/-- The parser and then its repetition do what a repetition of at least one does, and report where it ends: the loop
    that starts with the first value does what the loop that starts with none does behind it. -/
theorem yields_then_many_success_iff :
    ((p.seq p.many).map fun x => x.1 :: x.2).Yields s (.success as r) t ↔
      ∃ a as' u, as = a :: as' ∧ p.many1.Yields s (.success as r) u ∧ t = u ++ [.stopped as'.length] := by
  rw [yields_map_success_iff]
  constructor
  · rintro ⟨⟨a, as'⟩, h, rfl⟩
    obtain ⟨m, t₁, _, hp, hm, rfl⟩ := yields_seq_success_iff.mp h
    obtain ⟨t₂, hi, rfl⟩ := yields_many_success_iff.mp hm
    have hloop : (p.loop [a] m).Ends (a :: as', r) t₂ := ends_loop_singleton_iff.mpr ⟨as', hi, rfl⟩
    have hmany1 := yields_many1_loop.mpr (.inr ⟨a, m, _, r, t₁, t₂, hp, hloop, rfl, rfl⟩)
    exact ⟨a, as', t₁ ++ t₂, rfl, hmany1, (List.append_assoc ..).symm⟩
  · rintro ⟨a, as', u, rfl, h, rfl⟩
    rcases yields_many1_loop.mp h with ⟨e, -, ho⟩ | ⟨a', m, _, _, t₁, t₂, hp, hloop, ho, rfl⟩
    · nomatch ho
    · cases ho
      obtain ⟨_, hi, heq⟩ := ends_loop_singleton_iff.mp hloop
      cases heq
      have hm := yields_many_success_iff.mpr ⟨t₂, hi, rfl⟩
      exact ⟨(a, as'), yields_seq_success_iff.mpr ⟨m, t₁, _, hp, hm, List.append_assoc ..⟩, rfl⟩

theorem yields_many1_optional_of_many {o : Outcome σ ε (List α)} (h : p.many.Yields s o t) :
    ∃ u, (p.many1.optional.map fun found => found.getD []).Yields s o u := by
  obtain ⟨as, r, t', hi, rfl, -⟩ := yields_many.mp h
  cases as with
  | nil =>
    obtain ⟨rfl, e, hp⟩ := ends_items_nil_iff.mp hi
    have hnone := yields_many1_failure_iff.mpr hp
    exact ⟨_, yields_map.mpr ⟨_, yields_optional.mpr (.inr ⟨e, _, hnone, rfl, rfl⟩), rfl⟩⟩
  | cons a as =>
    have hsome := yields_many1_cons_iff.mpr hi
    exact ⟨_, yields_map.mpr ⟨_, yields_optional.mpr (.inl ⟨_, r, hsome, rfl⟩), rfl⟩⟩

theorem yields_many_of_many1_optional {o : Outcome σ ε (List α)}
    (h : (p.many1.optional.map fun found => found.getD []).Yields s o t) : ∃ u, p.many.Yields s o u := by
  obtain ⟨_, hoptional, rfl⟩ := yields_map.mp h
  rcases yields_optional.mp hoptional with ⟨as, r, hsome, rfl⟩ | ⟨e, t₁, hnone, rfl, rfl⟩
  · cases as with
    | nil => exact absurd hsome not_yields_many1_nil
    | cons a as => exact ⟨_, yields_many_success_iff.mpr ⟨_, yields_many1_cons_iff.mp hsome, rfl⟩⟩
  · exact ⟨_, yields_many_of_failure (yields_many1_failure_iff.mp hnone)⟩

/-- A repetition of at least one has the outcomes of the parser followed by its repetition, and the same events but
    for the count at the end; where the first attempt fails nothing is counted. If having none at all is no failure,
    it takes what a repetition of any number takes. -/
theorem many1_agrees_with_many (p : Parser σ ε α) (s : σ) :
    (∀ (e : ε) (t : Trace), p.many1.Yields s (.failure e) t ↔
      ((p.seq p.many).map fun x => x.1 :: x.2).Yields s (.failure e) t) ∧
    (∀ (as : List α) (r : σ) (t : Trace), ((p.seq p.many).map fun x => x.1 :: x.2).Yields s (.success as r) t ↔
      ∃ a as' u, as = a :: as' ∧ p.many1.Yields s (.success as r) u ∧ t = u ++ [.stopped as'.length]) ∧
    (∀ (r : σ) (t : Trace), ¬p.many1.Yields s (.success [] r) t) ∧
    ∀ o : Outcome σ ε (List α),
      (∃ t, (p.many1.optional.map fun found => found.getD []).Yields s o t) ↔ ∃ t, p.many.Yields s o t := by
  refine ⟨?_, ?_, ?_, ?_⟩
  · intro e t
    exact yields_many1_failure_iff.trans yields_then_many_failure_iff.symm
  · intro as r t
    exact yields_then_many_success_iff
  · intro r t
    exact not_yields_many1_nil
  · intro o
    constructor
    · rintro ⟨t, h⟩
      exact yields_many_of_many1_optional h
    · rintro ⟨t, h⟩
      exact yields_many1_optional_of_many h

end Parser
end TracedParsers
