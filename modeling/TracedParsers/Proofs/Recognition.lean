import TracedParsers.Formats.Nesting
import TracedParsers.Grammar.Derivation
import TracedParsers.Grammar.Shape
import TracedParsers.Parser.Values
import TracedParsers.Proofs.Leaves

/-!
# Values do not steer

What a grammar does apart from its value does not depend on the values that it makes on the way. Grammars
that differ in their values only have one recognizer: they end on the same inputs, leave the same or fail
with the same error, and report the same events, so that even the counts of their repetitions agree.
-/

namespace TracedParsers
namespace Grammar

variable {S : Signature} {Rule : S.Kind → Type → Type → Type} {M : Model S} {rules : Rules S}
  {rules' : Rules (S.withRules Rule)} {named : ∀ κ ε α β, S.Rule κ ε α → Rule κ ε β → Prop}
  {κ : S.Kind} {ε α β : Type} {g : Grammar S κ ε α} {g' : Grammar (S.withRules Rule) κ ε β}

theorem SameShape.recognizer_parserWith {calls : RuleParsers M} {calls' : RuleParsers (M.withRules Rule)}
    (alike : ∀ {κ ε α β} {r : S.Rule κ ε α} {r' : Rule κ ε β}, named κ ε α β r r' →
      (calls κ ε α r).recognizer = (calls' κ ε β r').recognizer)
    (h : SameShape named g g') :
    (g.parserWith M calls).recognizer = (g'.parserWith (M.withRules Rule) calls').recognizer := by
  induction h with
  | leaf l => rfl
  | rule h => exact alike h
  | pure a b => rfl
  | fail e => rfl
  | map f f' _ ih => simpa only [parserWith, Parser.recognizer_map] using ih
  | mapError f _ ih => simp only [parserWith, Parser.recognizer_mapError, ih]
  | through v _ ih => simp only [parserWith, Parser.recognizer_through, ih]
  | seq _ _ ih ih₁ =>
    rw [parserWith, parserWith, Parser.recognizer_seq, ih, ih₁, ← Parser.recognizer_seq]
  | seqLeft _ _ ih ih₁ => simp only [parserWith, Parser.recognizer_seqLeft, ih, ih₁]
  | seqRight _ _ ih ih₁ => simp only [parserWith, Parser.recognizer_seqRight, ih, ih₁]
  | choice _ _ ih ih₁ =>
    rw [parserWith, parserWith, Parser.recognizer_choice, ih, ih₁, ← Parser.recognizer_choice]
  | orElse _ _ ih ih₁ => simp only [parserWith, Parser.recognizer_orElse, ih, ih₁]
  | optional _ ih => simp only [parserWith, Parser.recognizer_optional, ih]
  | many _ ih => rw [parserWith, parserWith, Parser.recognizer_many, ih, ← Parser.recognizer_many]
  | many1 _ ih => rw [parserWith, parserWith, Parser.recognizer_many1, ih, ← Parser.recognizer_many1]

/-- Rules that say the same but for the values are alike when calls may be nested to any depth. -/
theorem recognizer_unfolded
    (closed : ∀ {κ ε α β} {r : S.Rule κ ε α} {r' : Rule κ ε β}, named κ ε α β r r' →
      SameShape named (rules κ ε α r) (rules' κ ε β r'))
    (depth : Nat) {r : S.Rule κ ε α} {r' : Rule κ ε β} (h : named κ ε α β r r') :
    (unfolded M rules depth κ ε α r).recognizer =
      (unfolded (M.withRules Rule) rules' depth κ ε β r').recognizer := by
  induction depth generalizing κ ε α β with
  | zero => rfl
  | succ depth ih => exact (closed h).recognizer_parserWith ih

theorem DifferInValues.recognizer_eq (h : DifferInValues rules rules' g g') :
    (g.parser M rules).recognizer = (g'.parser (M.withRules Rule) rules').recognizer := by
  obtain ⟨named, closed, hg⟩ := h
  have hdepth (depth : Nat) := hg.recognizer_parserWith (M := M) (recognizer_unfolded closed depth)
  exact Parser.ext_within fun s n => congrArg (fun p => (p.parse s).within n) (hdepth n)

/-- Grammars that differ in their values only have one recognizer. Where one of them ends, the other ends
    too, after the same events; both leave the same, or both fail with the same error. -/
theorem values_do_not_steer (M : Model S) (rules : Rules S) (rules' : Rules (S.withRules Rule))
    (g : Grammar S κ ε α) (g' : Grammar (S.withRules Rule) κ ε β) (h : DifferInValues rules rules' g g') :
    (g.parser M rules).recognizer = (g'.parser (M.withRules Rule) rules').recognizer ∧
    ∀ (s : M.Input κ) (t : Trace),
      (∀ o, (g.parser M rules).Yields s o t →
        ∃ o', (g'.parser (M.withRules Rule) rules').Yields s o' t ∧ o.Alike o') ∧
      ∀ o', (g'.parser (M.withRules Rule) rules').Yields s o' t →
        ∃ o, (g.parser M rules).Yields s o t ∧ o'.Alike o := by
  have hrecognizer := h.recognizer_eq (M := M)
  refine ⟨hrecognizer, fun s t => ⟨?_, ?_⟩⟩
  · intro o hg
    exact hg.alike_of_recognizer_eq hrecognizer
  · intro o' hg'
    exact hg'.alike_of_recognizer_eq hrecognizer.symm

/-! ### Nested parentheses, measured and counted -/

/-- Nested parentheses, with the number of pairs for a value and not their depth. -/
def pairs : Grammar (.text Nesting.Rule) () (MatchError Char) Nat :=
  .map (fun inside => inside.foldl (· + ·) 1)
    (((Grammar.ofText (.char '(')).seqRight (.many (.call .nested))).seqLeft (.ofText (.char ')')))

def pairsRules : Rules (.text Nesting.Rule)
  | _, _, _, .nested => pairs

inductive NestedTwice : Unit → (ε α β : Type) → Nesting.Rule ε α → Nesting.Rule ε β → Prop where
  | nested : NestedTwice () (MatchError Char) Nat Nat .nested .nested

/-- Two pairs in a pair: how many pairs each of them holds is told in the same way when all are counted. -/
theorem values_do_not_steer_pairs :
    DifferInValues (S := .text Nesting.Rule) Nesting.rules pairsRules Nesting.nested pairs ∧
      (Nesting.nested.parser .text Nesting.rules).Yields (.ofString "(()())x") (.success 2 (.ofString "x"))
        [.stopped 0, .stopped 0, .stopped 2] ∧
      ∃ count, (pairs.parser .text pairsRules).Yields (.ofString "(()())x") (.success count (.ofString "x"))
        [.stopped 0, .stopped 0, .stopped 2] := by
  have hshape : SameShape (S := .text Nesting.Rule) NestedTwice Nesting.nested pairs :=
    .map _ _ (.seqLeft (.seqRight (.leaf _) (.many (.rule .nested))) (.leaf _))
  have hdiffer : DifferInValues (S := .text Nesting.Rule) Nesting.rules pairsRules Nesting.nested pairs := by
    refine ⟨NestedTwice, ?_, hshape⟩
    rintro κ ε α β r r' ⟨⟩
    exact hshape
  have read (c : Char) (cs : List Char) :
      Derives .text Nesting.rules (.ofText (.char c)) (.ofList (c :: cs)) (.success c (.ofList cs)) [] :=
    .leaf (TextLeaf.yields_char c cs)
  -- No pair starts with a closing parenthesis, so what the pair before it holds ends there.
  have stop (cs : List Char) :
      Derives .text Nesting.rules (.many (.call .nested)) (.ofList (')' :: cs))
        (.success [] (.ofList (')' :: cs))) ([] ++ [.stopped 0]) :=
    .many_nil (.rule (.map (.seqLeft_failure (.seqRight_failure
      (.leaf (TextLeaf.yields_char_other '(' ')' cs rfl))))))
  have pair (cs : List Char) :
      Derives .text Nesting.rules (.call .nested) (.ofList ('(' :: ')' :: cs)) (.success 1 (.ofList cs))
        [.stopped 0] :=
    .rule (.map (.seqLeft_success (.seqRight_success (read '(' (')' :: cs)) (stop cs)) (read ')' cs)))
  have second : Derives .text Nesting.rules (.many (.call .nested)) (.ofList ['(', ')', ')', 'x'])
      (.success [1] (.ofList [')', 'x'])) ([.stopped 0] ++ [] ++ [.stopped 1]) :=
    .many_cons (pair [')', 'x']) (stop ['x'])
  have both : Derives .text Nesting.rules (.many (.call .nested)) (.ofList ['(', ')', '(', ')', ')', 'x'])
      (.success [1, 1] (.ofList [')', 'x'])) ([.stopped 0] ++ [.stopped 0] ++ [.stopped 2]) :=
    .many_cons (pair ['(', ')', ')', 'x']) second
  have nested : Derives .text Nesting.rules Nesting.nested (.ofList ['(', '(', ')', '(', ')', ')', 'x'])
      (.success 2 (.ofList ['x'])) [.stopped 0, .stopped 0, .stopped 2] :=
    .map (.seqLeft_success (.seqRight_success (read '(' ['(', ')', '(', ')', ')', 'x']) both) (read ')' ['x']))
  obtain ⟨-, halike⟩ := values_do_not_steer .text Nesting.rules pairsRules Nesting.nested pairs hdiffer
  obtain ⟨o, hpairs, ho⟩ := (halike _ _).1 _ nested.yields
  obtain ⟨count, rfl⟩ := ho.of_success
  exact ⟨hdiffer, nested.yields, count, hpairs⟩

end Grammar
end TracedParsers
