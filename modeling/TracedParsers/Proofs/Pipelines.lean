import TracedParsers.Parser.Pipeline
import TracedParsers.Proofs.Leaves

/-!
# What a pipeline does

A pipeline of transformations is run once behind its parser. Where the parser fails, the functions on errors are all
that matters. Where it succeeds, the value goes from one transformation to the next until a check refuses it, and
then the refusal goes through the functions on errors behind that check. There is one report of it, however many
checks there are.
-/

namespace TracedParsers
namespace Pipeline

variable {σ ε ε' α β : Type} {pl : Pipeline ε α ε' β} {p : Parser σ ε α} {s r : σ} {a : α} {b : β} {t : Trace}

theorem on_yields_of_failure {e : ε} (h : p.Yields s (.failure e) t) :
    (pl.on p).Yields s (.failure (pl.carryError e)) t := by
  have hmapped : (p.mapError pl.carryError).Yields s (.failure (pl.carryError e)) t :=
    Parser.yields_mapError.mpr ⟨_, h, rfl⟩
  rw [on_eq_validate]
  exact Parser.yields_validate.mpr (.inl ⟨_, hmapped, rfl⟩)

section
variable (h : p.Yields s (.success a r) t)
include h

theorem mapError_yields_of_success : (p.mapError pl.carryError).Yields s (.success a r) t :=
  Parser.yields_mapError.mpr ⟨_, h, rfl⟩

theorem on_yields_of_carry_ok (passed : pl.carry a = .ok b) : (pl.on p).Yields s (.success b r) t := by
  rw [on_eq_validate]
  exact Parser.yields_validate.mpr (.inr (.inl ⟨a, r, b, mapError_yields_of_success h, passed, rfl⟩))

theorem on_yields_of_carry_error {e : ε'} (refused : pl.carry a = .error e) :
    (pl.on p).Yields s (.failure e) (t ++ [.rejected]) := by
  rw [on_eq_validate]
  exact Parser.yields_validate.mpr (.inr (.inr ⟨a, r, e, t, mapError_yields_of_success h, refused, rfl, rfl⟩))

end

/-- A pipeline ends only where its parser does. -/
theorem parser_yields_of_on {o : Outcome σ ε' β} (h : (pl.on p).Yields s o t) : ∃ o' u, p.Yields s o' u := by
  rw [on_eq_validate] at h
  have hmapped : ∃ o' u, (p.mapError pl.carryError).Yields s o' u := by
    rcases Parser.yields_validate.mp h with ⟨e, hp, -⟩ | ⟨a, r, b, hp, -⟩ | ⟨a, r, e, u, hp, -⟩
    · exact ⟨_, t, hp⟩
    · exact ⟨_, t, hp⟩
    · exact ⟨_, u, hp⟩
  obtain ⟨o', u, hp⟩ := hmapped
  obtain ⟨o'', hp, -⟩ := Parser.yields_mapError.mp hp
  exact ⟨o'', u, hp⟩

/-- A pipeline behind a parser is one function on errors and one check behind it. Where the parser fails, its error
    passes the functions on errors in order and nothing else runs: any pipeline with the same functions on errors
    does the same. Where the parser succeeds, its value passes the functions on values and the checks in order. If
    they all take it, the pipeline succeeds with what comes out, and leaves what the parser left. If the check in
    place `i` refuses, the pipeline fails with the error of this check, which has passed the functions on errors
    behind place `i`. To what the parser reports, one refusal is added in this case and nothing in the others. -/
theorem pipeline_is_one_pass (pl : Pipeline ε α ε' β) (p : Parser σ ε α) (s : σ) :
    pl.on p = (p.mapError pl.carryError).validate pl.carry ∧
    (∀ (e : ε) (t : Trace), p.Yields s (.failure e) t →
      (pl.on p).Yields s (.failure (pl.carryError e)) t ∧
      ∀ (γ : Type) (other : Pipeline ε α ε' γ), other.onErrors = pl.onErrors →
        (other.on p).Yields s (.failure (pl.carryError e)) t) ∧
    (∀ (a : α) (r : σ) (t : Trace), p.Yields s (.success a r) t →
      (∀ b, pl.carry a = .ok b → (pl.on p).Yields s (.success b r) t) ∧
      (∀ i e, pl.RefusedAt a i e → (pl.on p).Yields s (.failure e) (t ++ [.rejected])) ∧
      ((∃ b, pl.carry a = .ok b) ∨ ∃ i e, pl.RefusedAt a i e)) ∧
    ∀ (o : Outcome σ ε' β) (t : Trace), (pl.on p).Yields s o t → ∃ o' u, p.Yields s o' u := by
  refine ⟨on_eq_validate pl p, ?_, ?_, fun o t h => parser_yields_of_on h⟩
  · intro e t h
    refine ⟨on_yields_of_failure h, ?_⟩
    intro γ other same
    rw [← carryError_onErrors, ← same, carryError_onErrors]
    exact on_yields_of_failure h
  · intro a r t h
    refine ⟨fun b => on_yields_of_carry_ok h, ?_, ?_⟩
    · intro i e refused
      exact on_yields_of_carry_error h refused.carry_eq
    · cases hcarry : pl.carry a with
      | ok b => exact .inl ⟨b, rfl⟩
      | error e =>
        obtain ⟨i, refused⟩ := exists_refusedAt hcarry
        exact .inr ⟨i, e, refused⟩

/-- The numbers that pass a test. -/
def only (test : Nat → Bool) (reason : String) (n : Nat) : Except (List String) Nat :=
  if test n then .ok n else .error [reason]

/-- The successor of a digit, which has to be even and below six. An error tells which checks it has passed by. -/
def evenBelowSix : Pipeline (MatchError Char) Nat (List String) Nat :=
  .mapError (fun _ => ["no digit"]) <| .map (· + 1) <| .validate (only (· % 2 == 0) "odd") <|
    .mapError ("first" :: ·) <| .validate (only (· < 6) "large") <| .mapError ("second" :: ·) .done

/-- The same errors, and a list of the digit. -/
def listed : Pipeline (MatchError Char) Nat (List String) (List Nat) :=
  .mapError (fun _ => ["no digit"]) <| .map ([·]) <| .mapError ("first" :: ·) <| .mapError ("second" :: ·) .done

/-- A letter, with the checks and without them; a digit that is refused by the first check, one that is refused by
    the second, and one that passes both. -/
theorem pipeline_is_one_pass_digit :
    (evenBelowSix.on Matcher.digit).Yields (.ofString "x") (.failure ["second", "first", "no digit"]) [] ∧
      (listed.on Matcher.digit).Yields (.ofString "x") (.failure ["second", "first", "no digit"]) [] ∧
      (evenBelowSix.on Matcher.digit).Yields (.ofString "2") (.failure ["second", "first", "odd"]) [.rejected] ∧
      (evenBelowSix.on Matcher.digit).Yields (.ofString "7") (.failure ["second", "large"]) [.rejected] ∧
      (evenBelowSix.on Matcher.digit).Yields (.ofString "3!") (.success 4 (.ofString "!")) [] := by
  have hread (c : Char) (cs : List Char) (h : c.isDigit = true) :
      Matcher.digit.Yields (.ofList (c :: cs)) (.success (Matcher.digitValue c) (.ofList cs)) [] :=
    (TextLeaf.digit).yields_iff.mpr ⟨_, .success h, rfl⟩
  have hletter : Matcher.digit.Yields (.ofString "x") (.failure (.unexpected "ASCII digit" 'x')) [] :=
    (TextLeaf.digit).yields_iff.mpr ⟨_, .other rfl, rfl⟩
  obtain ⟨-, hfails, -⟩ := pipeline_is_one_pass evenBelowSix Matcher.digit (.ofString "x")
  obtain ⟨-, -, hodd, -⟩ := pipeline_is_one_pass evenBelowSix Matcher.digit (.ofString "2")
  obtain ⟨-, -, hlarge, -⟩ := pipeline_is_one_pass evenBelowSix Matcher.digit (.ofString "7")
  obtain ⟨-, -, heven, -⟩ := pipeline_is_one_pass evenBelowSix Matcher.digit (.ofString "3!")
  have threeOdd : only (· % 2 == 0) "odd" 3 = .error ["odd"] := rfl
  have eightLarge : only (· < 6) "large" 8 = .error ["large"] := rfl
  have passedTwo : (mapError (fun _ : MatchError Char => ["no digit"]) <| map (· + 1) done).carry 2 = .ok 3 := rfl
  have passedSeven : (mapError (fun _ : MatchError Char => ["no digit"]) <| map (· + 1) <|
      validate (only (· % 2 == 0) "odd") <| mapError ("first" :: ·) done).carry 7 = .ok 8 := rfl
  have refusedOdd : evenBelowSix.RefusedAt (2 : Nat) 2 ["second", "first", "odd"] := .intro _ _ _ passedTwo threeOdd
  have refusedLarge : evenBelowSix.RefusedAt (7 : Nat) 4 ["second", "large"] := .intro _ _ _ passedSeven eightLarge
  refine ⟨(hfails _ _ hletter).1, (hfails _ _ hletter).2 _ listed rfl, ?_, ?_, ?_⟩
  · exact (hodd _ _ _ (hread '2' [] rfl)).2.1 2 _ refusedOdd
  · exact (hlarge _ _ _ (hread '7' [] rfl)).2.1 4 _ refusedLarge
  · exact (heven _ _ _ (hread '3' ['!'] rfl)).1 4 rfl

end Pipeline
end TracedParsers
