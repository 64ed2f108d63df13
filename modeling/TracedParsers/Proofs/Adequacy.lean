import TracedParsers.Grammar.Derivation
import TracedParsers.Proofs.Leaves

/-!
# Parsers and derivations

The parser of a grammar yields exactly what the rules of derivation give, and these give at most one
outcome and trace. At the leaves the rules are those of the matchers.
-/

namespace TracedParsers
namespace Grammar

/-- Parsers and derivations agree on every grammar, derivations give at most one outcome and trace, and
    at the leaves they follow the rules of the matchers. -/
theorem parser_yields_iff_derives :
    (∀ {S : Signature} (M : Model S) (rules : Rules S) {κ : S.Kind} {ε α : Type} (g : Grammar S κ ε α)
      (s : M.Input κ) (o : Outcome (M.Input κ) ε α) (t : Trace),
      ((g.parser M rules).Yields s o t ↔ Derives M rules g s o t) ∧
        ∀ o' t', Derives M rules g s o t → Derives M rules g s o' t' → o' = o ∧ t' = t) ∧
    (∀ {Rule : Type → Type → Type} (rules : Rules (.text Rule)) {ε α : Type} (l : TextLeaf ε α) (s : Text)
      (o : Outcome Text ε α) (t : Trace),
      Derives .text rules (.ofText l) s o t ↔ l.Reads s.chars (o.mapRest Text.chars) t) ∧
    ∀ {Rule : Type → Type → Type} {τ : Type} [BEq τ] [Inspect τ] (rules : Rules (.tokens τ Rule))
      {ε α : Type} (l : TokenLeaf τ ε α) (s : List τ) (o : Outcome (List τ) ε α) (t : Trace),
      Derives (.tokens τ) rules (.ofToken l) s o t ↔ l.Reads s o t := by
  refine ⟨fun M rules _ _ _ g s o t => ⟨⟨derives_of_yields, Derives.yields⟩, ?_⟩, ?_, ?_⟩
  · intro o' t' h h'
    exact h'.unique h
  · intro Rule rules ε α l s o t
    exact derives_leaf_iff.trans l.yields_iff
  · intro Rule τ _ _ rules ε α l s o t
    exact derives_leaf_iff.trans l.yields_iff

end Grammar
end TracedParsers
