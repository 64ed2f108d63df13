import TracedParsers.Parser.Basic

/-!
# Repetition

A parser is run again and again, each time on what the last success left, until it fails. The values
so far are kept, and so is the input of the failed attempt, whatever that attempt had read. The
repetition is a loop over reversed lists. Zero or more starts it with no values, one or more with the value of
a first success; `loop_eq` relates the two, and `items_eq` gives the loop as a plain recursion.
-/

namespace TracedParsers
namespace Parser

variable {σ ε α : Type}

/-- The repetition loop: `steps` bounds the number of rounds, and `values` and `log` hold the values and
    the events so far, latest first. -/
def collect (p : Parser σ ε α) : (steps : Nat) → σ → (values : List α) → (log : Trace) →
    Option ((List α × σ) × Trace)
  | 0, _, _, _ => none
  | n + 1, s, values, log =>
    match (p.parse s).within n with
    | none => none
    | some (.failure _, t) => some ((values.reverse, s), (t.reverseAux log).reverse)
    | some (.success a rest, t) => p.collect n rest (a :: values) (t.reverseAux log)

theorem collect_mono {p : Parser σ ε α} {m n : Nat} {s : σ} {values : List α} {log : Trace}
    {x : (List α × σ) × Trace} (h : m ≤ n) (hx : p.collect m s values log = some x) :
    p.collect n s values log = some x := by
  induction m generalizing n s values log with
  | zero => cases hx
  | succ m ih =>
    match n, h with
    | n + 1, h =>
      have hmn := Nat.le_of_succ_le_succ h
      rw [collect] at hx ⊢
      cases hp : (p.parse s).within m with
      | none => rw [hp] at hx; cases hx
      | some y =>
        rw [(p.parse s).mono hmn hp]
        rw [hp] at hx
        obtain ⟨o, t⟩ := y
        cases o with
        | failure e => exact hx
        | success a rest => exact ih hmn hx

/-- The loop from an input on, where some values are there already, latest first. It ends with all values and the
    input at which the row of successes ends. -/
def loop (p : Parser σ ε α) (values : List α) (s : σ) : Run (List α × σ) where
  within n := p.collect n s values []
  mono := collect_mono

/-- The values of the successes in a row that start at an input, and the input at which the row ends. -/
def items (p : Parser σ ε α) (s : σ) : Run (List α × σ) :=
  p.loop [] s

/-- Zero or more: repeats `p` until it fails and reports how many values there are. Never fails. -/
protected def many (p : Parser σ ε α) : Parser σ ε (List α) where
  parse s := p.items s >>= fun x => Run.emit (.stopped x.1.length) >>= fun _ => pure (.success x.1 x.2)

/-- One or more: fails as `p` does if the first attempt fails, and starts the loop with its value otherwise. The end
    of the repetition is not reported. -/
protected def many1 (p : Parser σ ε α) : Parser σ ε (List α) where
  parse s := p.parse s >>= fun
    | .failure e => pure (.failure e)
    | .success a rest => p.loop [a] rest >>= fun x => pure (.success x.1 x.2)

/-! ### The loop as a recursion -/

/-- Round by round, what the loop starts with stays in front of what it adds. -/
theorem collect_eq (p : Parser σ ε α) (n : Nat) (s : σ) (values : List α) (log : Trace) :
    p.collect n s values log =
      ((p.items s).within n).map fun x => ((values.reverse ++ x.1.1, x.1.2), log.reverse ++ x.2) := by
  show _ = (p.collect n s [] []).map _
  induction n generalizing s values log with
  | zero => rfl
  | succ n ih =>
    rw [collect, collect]
    match (p.parse s).within n with
    | none => rfl
    | some (.failure _, t) => simp
    | some (.success a rest, t) =>
      simp only
      rw [ih rest (a :: values), ih rest [a]]
      simp [Option.map_map, Function.comp_def]

/-- The loop that has some values already does what the loop without values does, and puts them in front. -/
theorem loop_eq (p : Parser σ ε α) (values : List α) (s : σ) :
    p.loop values s = (fun x => (values.reverse ++ x.1, x.2)) <$> p.items s := by
  ext1 n
  exact collect_eq p n s values []

theorem items_eq (p : Parser σ ε α) (s : σ) :
    p.items s = (p.parse s >>= fun
      | .failure _ => pure ([], s)
      | .success a rest => p.items rest >>= fun x => pure (a :: x.1, x.2)).later := by
  ext1 n
  match n with
  | 0 => rfl
  | n + 1 =>
    rw [Run.within_later_succ, Run.within_bind]
    show p.collect (n + 1) s [] [] = _
    rw [collect]
    match (p.parse s).within n with
    | none => rfl
    | some (.failure _, t) => simp
    | some (.success a rest, t) =>
      simp only [Option.bind_some]
      rw [collect_eq, Run.within_bind]
      cases (p.items rest).within n <;> simp

end Parser
end TracedParsers
