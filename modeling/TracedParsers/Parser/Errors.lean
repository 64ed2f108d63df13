import TracedParsers.Parser.Yields

/-!
# Mapping the errors of parsers

To map the errors of a construction is to map the errors of its parts. A construction hands an error on
as it is or drops it, and what it does next depends only on there being one, so both sides run through
the same steps and report the same events. For a check the errors of its refusals are mapped too.
-/

namespace TracedParsers
namespace Parser

variable {σ σ' ε ε' α β : Type} {p : Parser σ ε α} {h : ε → ε'}

theorem mapError_mapError {ε'' : Type} {f : ε' → ε''} :
    (p.mapError h).mapError f = p.mapError (f ∘ h) := by
  ext1
  funext s
  simp only [mapError, Functor.map_map, Outcome.mapError_mapError]

theorem mapError_map {f : α → β} : (p.map f).mapError h = (p.mapError h).map f := by
  ext1
  funext s
  simp only [mapError, Parser.map, Functor.map_map, Outcome.mapError_map]

theorem mapError_through {q : Parser σ' ε α} {into : σ → σ'} {back : σ' → σ} :
    (q.through into back).mapError h = (q.mapError h).through into back := by
  ext1
  funext s
  simp only [mapError, through, Functor.map_map, Outcome.mapError_mapRest]

theorem mapError_validate {check : α → Except ε β} :
    (p.validate check).mapError h = (p.mapError h).validate fun a => (check a).mapError h := by
  ext1
  funext s
  simp only [mapError, validate, map_bind, bind_map_left]
  refine bind_congr fun o => ?_
  cases o with
  | failure e => rfl
  | success a rest =>
    simp only [Outcome.mapError_success]
    cases check a with
    | ok b => rfl
    | error e => rfl

theorem mapError_seq {q : Parser σ ε β} : (p.seq q).mapError h = (p.mapError h).seq (q.mapError h) := by
  ext1
  funext s
  simp only [mapError, Parser.seq, map_bind, bind_map_left]
  refine bind_congr fun o => ?_
  cases o with
  | failure e => rfl
  | success a rest => simp only [Functor.map_map, Outcome.mapError_map, Outcome.mapError_success]

theorem mapError_seqLeft {q : Parser σ ε β} :
    (p.seqLeft q).mapError h = (p.mapError h).seqLeft (q.mapError h) := by
  rw [Parser.seqLeft, Parser.seqLeft, mapError_map, mapError_seq]

theorem mapError_seqRight {q : Parser σ ε β} :
    (p.seqRight q).mapError h = (p.mapError h).seqRight (q.mapError h) := by
  rw [Parser.seqRight, Parser.seqRight, mapError_map, mapError_seq]

theorem mapError_choice {q : Parser σ ε β} :
    (p.choice q).mapError h = (p.mapError h).choice (q.mapError h) := by
  ext1
  funext s
  simp only [mapError, Parser.choice, map_bind, bind_map_left]
  refine bind_congr fun o => ?_
  cases o with
  | success a rest => rfl
  | failure e =>
    -- The error of the first part is dropped, mapped or not.
    simp only [Outcome.mapError_failure, map_bind, Functor.map_map, Outcome.mapError_map]

theorem mapError_orElse {q : Parser σ ε α} :
    (p.orElse q).mapError h = (p.mapError h).orElse (q.mapError h) := by
  rw [Parser.orElse, Parser.orElse, mapError_map, mapError_choice]

theorem mapError_optional : p.optional.mapError h = (p.mapError h).optional := by
  have hblank : (blank : Parser σ ε (Option α)).mapError h = blank := rfl
  rw [Parser.optional, Parser.optional, mapError_orElse, mapError_map, hblank]

/-- The loop drops the error that ends it. -/
theorem collect_mapError (n : Nat) (s : σ) (values : List α) (log : Trace) :
    (p.mapError h).collect n s values log = p.collect n s values log := by
  induction n generalizing s values log with
  | zero => rfl
  | succ n ih =>
    rw [collect, collect]
    simp only [mapError, Run.within_map]
    cases (p.parse s).within n with
    | none => rfl
    | some x =>
      obtain ⟨o, t⟩ := x
      cases o with
      | failure e => rfl
      | success a rest => exact ih rest (a :: values) (t.reverseAux log)

theorem loop_mapError (values : List α) (s : σ) : (p.mapError h).loop values s = p.loop values s := by
  ext1 n
  exact collect_mapError n s values []

theorem mapError_many : p.many.mapError h = (p.mapError h).many := by
  ext1
  funext s
  simp only [Parser.many, items, loop_mapError]
  simp only [mapError, map_bind, map_pure]
  rfl

theorem mapError_many1 : p.many1.mapError h = (p.mapError h).many1 := by
  ext1
  funext s
  simp only [Parser.many1, loop_mapError]
  simp only [mapError, map_bind, bind_map_left]
  refine bind_congr fun o => ?_
  cases o with
  | failure e => rfl
  | success a rest => simp only [Outcome.mapError_success, map_bind, map_pure]

end Parser
end TracedParsers
