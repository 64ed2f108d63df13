import TracedParsers.Parser.Yields
import TracedParsers.Source
import TracedParsers.MatchError

/-!
# Matching one element

The parser that reads one element of its input and tests it. A failure shows what was looked for and,
unless the input is at its end, the element that stands there. All matchers but literals come from it.
-/

namespace TracedParsers
namespace Matcher

variable {σ τ : Type} [Source σ τ]

/-- Reads an element that passes `test`; `expected` names such elements. -/
def element (test : τ → Bool) (expected : String) : Parser σ (MatchError τ) τ where
  parse s :=
    match Source.next? s with
    | none => pure (.failure (.unexpectedEnd expected))
    | some (x, rest) =>
      if test x then pure (.success x rest) else pure (.failure (.unexpected expected x))

/-- Reads an element that is equal to `wanted`, and gives the one that was read. -/
def exactly [BEq τ] [Inspect τ] (wanted : τ) : Parser σ (MatchError τ) τ :=
  element (· == wanted) (inspect wanted)

variable {test : τ → Bool} {expected : String} {s : σ} {o : Outcome σ (MatchError τ) τ} {t : Trace}

theorem yields_element_of_none (h : Source.next? s = none) :
    (element test expected).Yields s o t ↔ o = .failure (.unexpectedEnd expected) ∧ t = [] := by
  simp only [Parser.Yields, element, h, Run.ends_pure]

theorem yields_element_of_some {x : τ} {rest : σ} (h : Source.next? s = some (x, rest)) :
    (element test expected).Yields s o t ↔
      o = (if test x then .success x rest else .failure (.unexpected expected x)) ∧ t = [] := by
  simp only [Parser.Yields, element, h]
  split <;> exact Run.ends_pure

end Matcher
end TracedParsers
