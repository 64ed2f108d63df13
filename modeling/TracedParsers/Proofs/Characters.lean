import TracedParsers.Grammar.Characters
import TracedParsers.Proofs.Leaves
import TracedParsers.Proofs.Simulation

/-!
# Texts as lists of characters

A grammar that asks for single characters does the same on a text and on the list of its characters. The
matchers of texts keep the size of what is left and those of tokens do not, and both tell in the same words
what they look for.
-/

namespace TracedParsers

variable {Rule : Type → Type → Type} {ε α : Type}

theorem CharLeaf.reads_token_iff (l : CharLeaf ε α) {cs : List Char} {o : Outcome (List Char) ε α}
    {t : Trace} : l.token.Reads cs o t ↔ l.text.Reads cs o t := by
  cases l with
  | char wanted => rfl
  | charIf test expected => rfl

/-- The matcher of tokens does on the characters of a text what the matcher of texts does on the text. -/
theorem CharLeaf.yields_token_iff (l : CharLeaf ε α) {s : Text} {o' : Outcome (List Char) ε α} {t : Trace} :
    l.token.parser.Yields s.chars o' t ↔ ∃ o, l.text.parser.Yields s o t ∧ o' = o.mapRest Text.chars := by
  rw [l.token.yields_iff, l.reads_token_iff]
  constructor
  · intro h
    refine ⟨o'.mapRest Text.ofList, l.text.yields_iff.mpr ?_, (Outcome.mapRest_chars_ofList o').symm⟩
    rwa [Outcome.mapRest_chars_ofList]
  · rintro ⟨o, h, rfl⟩
    exact l.text.yields_iff.mp h

namespace Grammar

/-- A grammar of characters ends on the list of characters of a text where it ends on the text, with the same
    value or error and the same trace, and leaves the characters of what it leaves of the text. -/
theorem yields_overTokens_iff_overText (rules : Rules (.characters Rule)) (g : Grammar (.characters Rule) () ε α)
    (s : Text) (o' : Outcome (List Char) ε α) (t : Trace) :
    (g.overTokens.parser (.tokens Char) rules.overTokens).Yields s.chars o' t ↔
      ∃ o, (g.overText.parser .text rules.overText).Yields s o t ∧ o' = o.mapRest Text.chars := by
  have htokens : g.overTokens.parser (.tokens Char) rules.overTokens =
      g.parser (Model.onLeaves (.tokens Char) CharLeaf.token) rules := parser_withLeaves g
  have htext : g.overText.parser .text rules.overText = g.parser (Model.onLeaves .text CharLeaf.text) rules :=
    parser_withLeaves g
  rw [htokens, htext]
  exact yields_image_iff (S := .characters Rule) (Model.onLeaves .text CharLeaf.text)
    (Model.onLeaves (.tokens Char) CharLeaf.token) Signature.noViews (fun _ => Text.chars)
    CharLeaf.yields_token_iff

end Grammar
end TracedParsers
