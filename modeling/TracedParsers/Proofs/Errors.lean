import TracedParsers.Grammar.Derivation
import TracedParsers.Grammar.Errors
import TracedParsers.Parser.Errors
import TracedParsers.Proofs.Leaves

/-!
# Errors are handed on

A grammar neither makes an error of its own nor looks into one. Mapping every error where it arises, at
the leaves, the failures, the checks and the mappings inside, comes to the same as mapping the error that
comes out in the end: the two parsers are equal, and what they do apart from the error is what the grammar
does without any mapping.
-/

namespace TracedParsers
namespace Grammar

variable {S : Signature} {M : Model S} {rules : Rules S} {κ : S.Kind} {ε ε' α : Type} {h : ε → ε'}

theorem parserWith_mapErrors {calls : RuleParsers M} {calls' : RuleParsers (M.withMapped ε ε')}
    (same : ∀ κ ε₁ α (r : S.Rule κ ε₁ α), calls' κ ε₁ α (.same r) = calls κ ε₁ α r)
    (mapped : ∀ κ α (r : S.Rule κ ε α), calls' κ ε' α (.mapped r rfl) = (calls κ ε α r).mapError h)
    (g : Grammar S κ ε α) :
    (g.mapErrors h).parserWith (M.withMapped ε ε') calls' = (g.parserWith M calls).mapError h := by
  induction g with
  | leaf | pure | fail => rfl
  | rule r => exact mapped _ _ r
  | map f g ih => simp only [mapErrors, parserWith, ih same mapped, Parser.mapError_map]
  | @mapError κ ε₁ ε α f g =>
    -- The part has errors of another type and is only renamed.
    have hg : (g.rename MappedRule.same).parserWith (M.withMapped ε ε') calls' = g.parserWith M calls := by
      simp only [parserWith_rename, same]
    simp only [mapErrors, parserWith, hg, Parser.mapError_mapError]
  | validate check g ih => simp only [mapErrors, parserWith, ih same mapped, Parser.mapError_validate]
  | through v g ih => simp only [mapErrors, parserWith, ih same mapped, Parser.mapError_through]
  | seq g g' ih ih' =>
    simp only [mapErrors, parserWith, ih same mapped, ih' same mapped, Parser.mapError_seq]
  | seqLeft g g' ih ih' =>
    simp only [mapErrors, parserWith, ih same mapped, ih' same mapped, Parser.mapError_seqLeft]
  | seqRight g g' ih ih' =>
    simp only [mapErrors, parserWith, ih same mapped, ih' same mapped, Parser.mapError_seqRight]
  | choice g g' ih ih' =>
    simp only [mapErrors, parserWith, ih same mapped, ih' same mapped, Parser.mapError_choice]
  | orElse g g' ih ih' =>
    simp only [mapErrors, parserWith, ih same mapped, ih' same mapped, Parser.mapError_orElse]
  | optional g ih => simp only [mapErrors, parserWith, ih same mapped, Parser.mapError_optional]
  | many g ih => simp only [mapErrors, parserWith, ih same mapped, Parser.mapError_many]
  | many1 g ih => simp only [mapErrors, parserWith, ih same mapped, Parser.mapError_many1]

/-- Calls nested to any depth: a rule under its old name reads as before, and under its new name it reads
    as before with its errors mapped. -/
theorem unfolded_withMapped (depth : Nat) :
    (∀ κ ε₁ α (r : S.Rule κ ε₁ α),
      unfolded (M.withMapped ε ε') (rules.withMapped h) depth κ ε₁ α (.same r) =
        unfolded M rules depth κ ε₁ α r) ∧
    ∀ κ α (r : S.Rule κ ε α),
      unfolded (M.withMapped ε ε') (rules.withMapped h) depth κ ε' α (.mapped r rfl) =
        (unfolded M rules depth κ ε α r).mapError h := by
  induction depth with
  | zero => exact ⟨fun _ _ _ _ => rfl, fun _ _ _ => rfl⟩
  | succ depth ih =>
    obtain ⟨same, mapped⟩ := ih
    constructor
    · intro κ ε₁ α r
      have hbody : ((rules κ ε₁ α r).rename MappedRule.same).parserWith (M.withMapped ε ε')
          (unfolded (M.withMapped ε ε') (rules.withMapped h) depth) =
          (rules κ ε₁ α r).parserWith M (unfolded M rules depth) := by
        simp only [parserWith_rename, same]
      exact hbody
    · intro κ α r
      exact parserWith_mapErrors same mapped (rules κ ε α r)

theorem parser_mapErrors (g : Grammar S κ ε α) :
    (g.mapErrors h).parser (M.withMapped ε ε') (rules.withMapped h) = (g.parser M rules).mapError h := by
  have hdepth (depth : Nat) :
      (g.mapErrors h).parserWith (M.withMapped ε ε') (unfolded _ (rules.withMapped h) depth) =
        (g.parserWith M (unfolded M rules depth)).mapError h :=
    parserWith_mapErrors (unfolded_withMapped depth).1 (unfolded_withMapped depth).2 g
  exact Parser.ext_within fun s n => congrArg (fun p => (p.parse s).within n) (hdepth n)

/-- Errors mapped where they arise and errors mapped at the end are the same parser, which does what the
    grammar does, with its error mapped. -/
theorem errors_mapped_where_they_arise (M : Model S) (rules : Rules S) (g : Grammar S κ ε α) (h : ε → ε') :
    (g.mapErrors h).parser (M.withMapped ε ε') (rules.withMapped h) = (g.mapError h).parser M rules ∧
    ∀ (s : M.Input κ) (o : Outcome (M.Input κ) ε α) (t : Trace), (g.parser M rules).Yields s o t →
      ((g.mapErrors h).parser (M.withMapped ε ε') (rules.withMapped h)).Yields s (o.mapError h) t ∧
        ((g.mapError h).parser M rules).Yields s (o.mapError h) t := by
  have hend : (g.mapError h).parser M rules = (g.parser M rules).mapError h := rfl
  constructor
  · rw [hend, parser_mapErrors]
  · intro s o t hg
    have hmapped : ((g.parser M rules).mapError h).Yields s (o.mapError h) t :=
      Parser.yields_mapError.mpr ⟨o, hg, rfl⟩
    rw [hend, parser_mapErrors]
    exact ⟨hmapped, hmapped⟩

/-- A sign, with one error for whatever else is found, or a zero, which is refused. -/
def signOrZero : Grammar (.text fun _ _ => Empty) () (MatchError Char) Char :=
  .orElse (.mapError (fun _ => .invalid "no sign") (.ofText (.char '-')))
    (.validate (fun _ => .error (.invalid "zero")) (.ofText (.char '0')))

/-- The error of the sign is given up, and the message tells of the zero. -/
theorem errors_mapped_signOrZero :
    (signOrZero.parser .text .none).Yields (.ofString "0") (.failure (.invalid "zero"))
        [.fallback, .rejected] ∧
      ((signOrZero.mapErrors MatchError.message).parser (Model.text.withMapped _ _)
        (Rules.none.withMapped MatchError.message)).Yields (Text.ofString "0")
        (.failure "invalid value: zero") [.fallback, .rejected] ∧
      ((signOrZero.mapError MatchError.message).parser .text .none).Yields (.ofString "0")
        (.failure "invalid value: zero") [.fallback, .rejected] := by
  have hother : Derives .text .none (.ofText (.char '-')) (.ofString "0")
      (.failure (.unexpected (inspect '-') '0')) [] :=
    .leaf (TextLeaf.yields_char_other '-' '0' [] rfl)
  have hsign : Derives .text .none (.mapError (fun _ => .invalid "no sign") (.ofText (.char '-')))
      (.ofString "0") (.failure (.invalid "no sign") : Outcome Text (MatchError Char) Char) [] :=
    .mapError hother
  have hzero : Derives .text .none (.ofText (.char '0')) (.ofString "0") (.success '0' .empty) [] :=
    .leaf (TextLeaf.yields_char '0' [])
  have hrefused : Derives .text .none (.validate (fun _ => .error (.invalid "zero")) (.ofText (.char '0')))
      (.ofString "0") (.failure (.invalid "zero") : Outcome Text (MatchError Char) Char) ([] ++ [.rejected]) :=
    .validate_error hzero rfl
  have hfails := (Derives.orElse_right hsign hrefused).yields
  obtain ⟨-, hmapped⟩ := errors_mapped_where_they_arise .text .none signOrZero MatchError.message
  exact ⟨hfails, hmapped _ _ _ hfails⟩

end Grammar
end TracedParsers
